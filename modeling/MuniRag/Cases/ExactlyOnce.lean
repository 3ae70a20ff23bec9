import MuniRag.Cases.Effects
import MuniRag.Cases.Locks
import MuniRag.Cases.SelfDeadlock

/-!
# One update under one idempotency key

Any number of requests send one update under one key before the key runs out.
The first use of a key has no row to lock: two claims both find nothing, and the
`INSERT` of the second, which has waited for the first to commit, violates the
primary key.  In every interleaving without such a collision the action is
applied at most once, and once it is, every other request that ends has the
stored response or one of the three conflicts.
-/

namespace Cases

open Results Runs

variable {ι : Type} [DecidableEq ι] [Fintype ι]

/-! ## The requests -/

/-- What one of the requests has for itself. -/
structure Attempt where
  requestId : JsString
  credentialId : JsString
  pathCaseId : Option JsString
  claimedAt : Time
  now : Time
  auditId : JsString
  caseId : JsString
  eventId : JsString
  entityId : JsString
  deriving DecidableEq, Repr

/-- Requests with one tenant, principal, key and canonical request, an update. -/
structure Retries (ι : Type) where
  request : CaseRequest
  caseId : JsString
  expectedRevision : Nat
  action : Action
  body : request.body = .update caseId expectedRevision action
  tenantId : Uuid
  tenant_lt : tenantId < 16 ^ 32
  principalId : Uuid
  idempotencyKey : JsString
  attempt : ι → Attempt

namespace Retries

def mutations (retries : Retries ι) (i : ι) : Mutation where
  request := retries.request
  principal := {
    tenantId := retries.tenantId, principalId := retries.principalId
    credentialId := (retries.attempt i).credentialId }
  requestId := (retries.attempt i).requestId
  idempotencyKey := retries.idempotencyKey
  pathCaseId := (retries.attempt i).pathCaseId
  claimedAt := (retries.attempt i).claimedAt
  now := (retries.attempt i).now
  auditId := (retries.attempt i).auditId
  caseId := (retries.attempt i).caseId
  eventId := (retries.attempt i).eventId
  entityId := (retries.attempt i).entityId

/-- The row that they all claim. -/
def keyName (service : Service) (retries : Retries ι) : KeyName where
  tenantId := retries.tenantId
  principalId := retries.principalId
  operation := .update
  keySha256 := service.sha256 retries.idempotencyKey

/-- The case that they all update. -/
def key (retries : Retries ι) : CaseKey := (retries.tenantId, (uuidValue retries.caseId).getD 0)

/-- What one of them passes to `applyAction`. -/
def input (retries : Retries ι) (i : ι) : ActionInput :=
  (retries.mutations i).actionInput retries.expectedRevision retries.action

variable {service : Service} {retries : Retries ι} {i j : ι}

omit [DecidableEq ι] [Fintype ι] in
@[simp] theorem operation_eq : (retries.mutations i).operation = .update := by
  rw [Mutation.operation, CaseRequest.operation, mutations, retries.body]

omit [DecidableEq ι] [Fintype ι] in
@[simp] theorem keyName_eq : (retries.mutations i).keyName service = retries.keyName service := by
  have hkind : (retries.mutations i).operation = .update := operation_eq
  rw [Mutation.keyName, hkind]
  rfl

omit [DecidableEq ι] [Fintype ι] in
theorem key_lt : retries.key.1 < 16 ^ 32 ∧ retries.key.2 < 16 ^ 32 := by
  refine ⟨retries.tenant_lt, ?_⟩
  rw [key]
  cases hid : uuidValue retries.caseId with
  | none => simp
  | some id => exact uuidValue_lt hid

omit [DecidableEq ι] [Fintype ι] in
theorem body_eq {caseId : JsString} {expectedRevision : Nat} {action : Action}
    (h : (retries.mutations i).request.body = .update caseId expectedRevision action) :
    retries.caseId = caseId ∧ retries.expectedRevision = expectedRevision ∧
      retries.action = action := by
  have hbody : retries.request.body = .update caseId expectedRevision action := h
  rw [retries.body] at hbody
  simpa using hbody

omit [DecidableEq ι] [Fintype ι] in
theorem sameAsk : SameAsk (retries.input i) (retries.input j) := ⟨rfl, rfl, rfl⟩

/-- No request runs out before another begins, and a row that is stored when
they begin is live for all of them or for none. -/
structure Timely (service : Service) (retries : Retries ι) (keys : KeyName → Option KeyVersion) :
    Prop where
  claims : ∀ i j, (retries.attempt i).claimedAt <
    (retries.attempt j).claimedAt + service.idempotencyTtl
  stored : ∀ version ∈ keys (retries.keyName service),
    (∀ i, (retries.attempt i).claimedAt < version.row.expiresAt) ∨
      ∀ i, ¬ (retries.attempt i).claimedAt < version.row.expiresAt

end Retries

/-! ## The law and the condition -/

/-- The outcomes that the update may have for a request that does not apply it. -/
def conflicts : List (Nat × String) :=
  [(409, "idempotency_conflict"), (409, "request_in_progress"), (409, "revision_conflict")]

variable (service : Service) (retries : Retries ι) (catalog : Catalog) (tables : Tables)
variable (keys : KeyName → Option KeyVersion)

/-- Request `i` has applied the action to the tables as they were. -/
structure World.AppliedBy (world : World ι) (i : ι) (body : JsString) : Prop where
  alone : ∀ j, (world.sessions j).applied = true ↔ j = i
  ends : (world.sessions i).stage = .done 200 body
  stored : ∃ version ∈ world.keys (retries.keyName service), ∃ completion ∈ version.row.completion,
    completion.status = 200 ∧ completion.body = body
  tables : ∃ record out, get service.sql tables retries.key = some record ∧
    applyAction service.sql catalog tables record (retries.input i) = .ok out ∧
    world.tables = tables.graft out.tables retries.key

/-- The action is applied at most once; when it is, every other request that
ends has the stored response or a conflict. -/
def World.AppliedOnce (world : World ι) : Prop :=
  (∀ i, (world.sessions i).applied = false) ∧ world.tables = tables ∨
    ∃ i body, world.AppliedBy service retries catalog tables i body ∧
      ∀ j, j ≠ i → (world.sessions j).stage.ended = true →
        (world.sessions j).stage = .done 200 body ∨
          ∃ failure, (world.sessions j).stage = .failed failure ∧
            normalizeError failure ∈ conflicts

/-- An `INSERT` of a claim meets a committed row of its key; or a request is
refused for a reason of its own: its path names another case, or its response
does not pass the validator or the bounds on its length. -/
def World.Trips (world : World ι) : Event ι → Prop
  | .proceed i =>
      match (world.sessions i).stage with
      | .inserting => ¬ world.awaitsInsert service retries.mutations i ∧
          world.rival (retries.keyName service) (world.sessions i) ≠ none
      | .working => (retries.mutations i).namesCase retries.caseId = false
      | .responding record => service.accepts ((retries.mutations i).response record) = false
      | .completing body => ¬ service.acceptsLength body
      | _ => False
  | .fault .. | .catalog _ => False

instance (world : World ι) (event : Event ι) : Decidable (world.Trips service retries event) := by
  unfold World.Trips
  split
  · split <;> infer_instance
  all_goals infer_instance

/-! ## The course of the requests -/

/-- A row that is live for every request was stored when they began. -/
def Live : Prop :=
  ∃ version ∈ keys (retries.keyName service),
    ∀ i, (retries.attempt i).claimedAt < version.row.expiresAt

/-- No request can apply the action to the tables. -/
def Fruitless : Prop :=
  Live service retries keys ∨ ∀ record i out, get service.sql tables retries.key = some record →
    applyAction service.sql catalog tables record (retries.input i) ≠ .ok out

/-- A transaction that has written nothing. -/
structure Session.Bare (session : Session) : Prop where
  removed : session.removed = false
  inserted : session.inserted = none
  staged : session.staged = none

/-- The row that a request leaves when it has applied the action. -/
def Retries.finalRow (i : ι) (body : JsString) : KeyRow :=
  { (retries.mutations i).claimRow service with
    completion := some {
      status := 200, body, bodySha256 := service.sha256 body
      auditId := (retries.attempt i).auditId, completedAt := (retries.attempt i).now } }

/-- A transaction that has applied the action and not committed. -/
structure Session.Produced (session : Session) (i : ι) : Prop where
  caseLock : session.caseLock = some retries.key
  dead : ¬ Live service retries keys
  staged : ∃ record out, get service.sql tables retries.key = some record ∧
    applyAction service.sql catalog tables record (retries.input i) = .ok out ∧
    session.staged = some (retries.key, out.tables)

/-- What holds of request `i` at each of its stages, `now` being the committed
tables; `outcome` is who has applied the action, and with which response. -/
def Session.Follows (session : Session) (now : Tables) (outcome : Option (ι × JsString)) (i : ι) :
    Prop :=
  let live := Live service retries keys
  let replayed := fun status body => status = 200 ∧ ∃ j, outcome = some (j, body)
  let claimed := ¬ live ∧ session.inserted = some ((retries.mutations i).claimRow service)
  match session.stage with
  | .start | .claiming => session.Bare
  | .selecting tid => session.Bare ∧
      (live → ∃ version ∈ keys (retries.keyName service), version.tid = tid)
  | .clearing | .deleting _ => ¬ live ∧ session.inserted = none ∧ session.staged = none
  | .inserting => ¬ live ∧ session.inserted = none ∧ session.staged = none
  | .working => claimed ∧ session.staged = none
  | .acting record key => claimed ∧ session.staged = none ∧ key = retries.key ∧
      session.caseLock = some retries.key ∧ get service.sql now retries.key = some record
  | .responding _ | .auditing _ | .completing _ => claimed ∧ outcome = none ∧
      session.Produced service retries catalog tables keys i
  | .committing status body =>
      session.Bare ∧ (live ∨ replayed status body) ∨
        status = 200 ∧ outcome = none ∧
          session.inserted = some (retries.finalRow service i body) ∧
          session.Produced service retries catalog tables keys i
  | .replaying status body _ => session.Bare ∧ (live ∨ replayed status body) ∧
      session.rowLock ≠ none
  | .invalidating => session.rowLock ≠ none
  | .releasing failure =>
      normalizeError failure ∈ conflicts ∧ session.aborted = false ∨
        Fruitless service retries catalog tables keys
  | .failed failure => normalizeError failure ∈ conflicts ∨
      Fruitless service retries catalog tables keys
  | .done status body => outcome = some (i, body) ∨ live ∨ replayed status body
  | .locking | .locked | .sealing .. => False

/-- Nobody has applied the action, or `outcome` says who has. -/
def World.Phase (world : World ι) : Option (ι × JsString) → Prop
  | none => (∀ i, (world.sessions i).applied = false) ∧ world.tables = tables ∧
      world.keys (retries.keyName service) = keys (retries.keyName service)
  | some (i, body) => ¬ Live service retries keys ∧
      (∀ j, (world.sessions j).applied = true ↔ j = i) ∧
      (world.sessions i).stage = .done 200 body ∧
      (∃ tid, world.keys (retries.keyName service) =
        some { tid, row := retries.finalRow service i body }) ∧
      ∃ record out, get service.sql tables retries.key = some record ∧
        applyAction service.sql catalog tables record (retries.input i) = .ok out ∧
        world.tables = tables.graft out.tables retries.key

/-- **Invariant of the runs.** -/
structure World.OnCourse (world : World ι) (outcome : Option (ι × JsString)) : Prop where
  reads : world.catalog = catalog
  exclusive : world.Exclusive service retries.mutations
  phase : world.Phase service retries catalog tables keys outcome
  follows : ∀ i, (world.sessions i).Follows service retries catalog tables keys world.tables
    outcome i

variable {service : Service} {retries : Retries ι} {catalog : Catalog} {tables : Tables}
variable {keys : KeyName → Option KeyVersion} {world : World ι} {outcome : Option (ι × JsString)}
variable {i : ι}

omit [Fintype ι] in
/-- **Frame.**  A move that commits nothing: the request itself has to follow. -/
theorem onCourse_put {session : Session}
    (h : world.OnCourse service retries catalog tables keys outcome)
    (hopen : (world.sessions i).stage.ended = false)
    (htaken : Taken service retries.mutations world i session.holding)
    (happlied : session.applied = (world.sessions i).applied)
    (hfollows : session.Follows service retries catalog tables keys world.tables outcome i) :
    (world.put i session).OnCourse service retries catalog tables keys outcome := by
  have hsame : ∀ j, ((world.put i session).sessions j).applied = (world.sessions j).applied := by
    intro j
    by_cases hj : j = i
    · rw [hj, put_self, happlied]
    · rw [put_other _ _ hj]
  refine ⟨h.reads, exclusive_put h.exclusive htaken, ?_, ?_⟩
  · have hphase := h.phase
    cases outcome with
    | none =>
        obtain ⟨hnone, htables, hkeys⟩ := hphase
        exact ⟨fun j => (hsame j).trans (hnone j), htables, hkeys⟩
    | some done =>
        obtain ⟨hdead, halone, hstage, hrow, hresult⟩ := hphase
        refine ⟨hdead, fun j => by rw [hsame, halone], ?_, hrow, hresult⟩
        have hother : done.1 ≠ i := by
          intro hsame
          rw [← hsame, hstage] at hopen
          cases hopen
        rw [put_other _ _ hother, hstage]
  · intro j
    by_cases hj : j = i
    · subst hj
      rw [put_self]
      exact hfollows
    · rw [put_other _ _ hj]
      exact h.follows j

omit [DecidableEq ι] [Fintype ι] in
/-- The row of the key is live for nobody, or the action has been applied and it
is the row that this left. -/
theorem claim_of_read {version : KeyVersion} (htimely : retries.Timely service keys)
    (h : world.OnCourse service retries catalog tables keys outcome)
    (hkey : world.keys (retries.keyName service) = some version) :
    (Live service retries keys ∧ outcome = none) ∨
      (outcome = none ∧ ∀ j, ¬ (retries.attempt j).claimedAt < version.row.expiresAt) ∨
      ∃ done, outcome = some done ∧ version.row = retries.finalRow service done.1 done.2 ∧
        ∀ j, (retries.attempt j).claimedAt < version.row.expiresAt := by
  have hphase := h.phase
  cases outcome with
  | none =>
      obtain ⟨_, _, hkeys⟩ := hphase
      rw [hkeys] at hkey
      rcases htimely.stored version hkey with hlive | hdead
      · exact .inl ⟨⟨version, hkey, hlive⟩, rfl⟩
      · exact .inr (.inl ⟨rfl, hdead⟩)
  | some done =>
      obtain ⟨_, _, _, ⟨tid, hrow⟩, _⟩ := hphase
      rw [hrow] at hkey
      obtain rfl : _ = version := Option.some.inj hkey
      exact .inr (.inr ⟨done, rfl, rfl, fun j => htimely.claims j done.1⟩)

/-! ## Applying the action -/

/-- An action on another revision than the expected one is a conflict. -/
theorem applyAction_stale {host : SqlHost} {record : StoredCase} {input : ActionInput}
    (hstale : record.revision ≠ input.expectedRevision) :
    applyAction host catalog tables record input =
      .error (.case { code := "revision_conflict", message := "Procedure case revision conflict" }) := by
  simp [applyAction, requireCurrent, require, hstale, throughCase, Bind.bind, Except.bind]

omit [DecidableEq ι] [Fintype ι] in
/-- After the action was applied the case is at another revision. -/
theorem stale_of_applied {record : StoredCase} {out : Outcome}
    (hrecord : get service.sql tables retries.key = some record)
    (hout : applyAction service.sql catalog tables record (retries.input i) = .ok out) :
    ∃ next, get service.sql (tables.graft out.tables retries.key) retries.key = some next ∧
      next.revision ≠ retries.expectedRevision := by
  obtain ⟨row, hrow, rfl⟩ := Option.map_eq_some_iff.mp hrecord
  obtain ⟨acted, new, event, hadvances⟩ := applyAction_advances hrow retries.key_lt hout
  obtain ⟨followUpAt, principalId, hnew, _, _⟩ := hadvances.rewrites
  have hkey : row.key = retries.key := (case?_member hrow).2
  have hfound : out.tables.case? retries.key = some new := by
    refine case?_rewrite hrow ?_ ?_
    · rw [hadvances.leaves, hkey]
    · rw [hnew]
      exact hkey
  refine ⟨_, Option.map_eq_some_iff.mpr ⟨new, ?_, rfl⟩, ?_⟩
  · rw [graft_case?, if_pos rfl, hfound]
  · have hcurrent : row.revision = retries.expectedRevision := hadvances.current
    have hnext : new.revision = row.revision + 1 := by
      rw [hnew]
      rfl
    show new.revision ≠ retries.expectedRevision
    omega

omit [DecidableEq ι] [Fintype ι] in
/-- Once the action was applied, no request finds the expected revision. -/
theorem stale_of_outcome {done : ι × JsString}
    (h : world.OnCourse service retries catalog tables keys (some done)) :
    ∃ record, get service.sql world.tables retries.key = some record ∧
      record.revision ≠ retries.expectedRevision := by
  obtain ⟨_, _, _, _, record, out, hrecord, hout, htables⟩ := h.phase
  rw [htables]
  exact stale_of_applied hrecord hout

omit [DecidableEq ι] [Fintype ι] in
/-- A request that applies the action is the first. -/
theorem first_of_applies {record : StoredCase} {out : Outcome}
    (h : world.OnCourse service retries catalog tables keys outcome)
    (hrecord : get service.sql world.tables retries.key = some record)
    (hout : applyAction service.sql world.catalog world.tables record (retries.input i) = .ok out) :
    outcome = none := by
  cases outcome with
  | none => rfl
  | some done =>
      obtain ⟨current, hcurrent, hstale⟩ := stale_of_outcome h
      obtain rfl : current = record := Option.some.inj (hcurrent.symm.trans hrecord)
      rw [applyAction_stale hstale] at hout
      cases hout

omit [DecidableEq ι] [Fintype ι] in
/-- A request that cannot apply the action has come too late, or none can. -/
theorem refused_apply {record : StoredCase} {refusal : Refusal}
    (hfresh : ∀ i, (retries.input i).IsFresh tables)
    (h : world.OnCourse service retries catalog tables keys outcome)
    (hrecord : get service.sql world.tables retries.key = some record)
    (hrefused : applyAction service.sql world.catalog world.tables record (retries.input i) =
      .error refusal) :
    normalizeError refusal.thrown ∈ conflicts ∧ refusal.aborts = false ∨
      Fruitless service retries catalog tables keys := by
  cases outcome with
  | some done =>
      obtain ⟨current, hcurrent, hstale⟩ := stale_of_outcome h
      obtain rfl : current = record := Option.some.inj (hcurrent.symm.trans hrecord)
      rw [applyAction_stale hstale] at hrefused
      obtain rfl : _ = refusal := Except.error.inj hrefused
      exact .inl ⟨by decide, rfl⟩
  | none =>
      obtain ⟨_, htables, _⟩ := h.phase
      rw [htables] at hrecord
      rw [h.reads, htables] at hrefused
      refine .inr (.inr fun other j out hother hout => ?_)
      obtain rfl : record = other := Option.some.inj (hrecord.symm.trans hother)
      obtain ⟨out', hout'⟩ := applyAction_uniform (retries.sameAsk (i := j) (j := i)) (hfresh i) hout
      rw [hrefused] at hout'
      cases hout'

omit [DecidableEq ι] [Fintype ι] in
theorem refused_missing (h : world.OnCourse service retries catalog tables keys outcome)
    (hnone : get service.sql world.tables retries.key = none) :
    Fruitless service retries catalog tables keys := by
  cases outcome with
  | some done =>
      obtain ⟨record, hrecord, _⟩ := stale_of_outcome h
      rw [hnone] at hrecord
      cases hrecord
  | none =>
      obtain ⟨_, htables, _⟩ := h.phase
      rw [htables] at hnone
      refine .inr fun record j out hrecord => ?_
      rw [hnone] at hrecord
      cases hrecord

/-! ## Moves -/

omit [DecidableEq ι] [Fintype ι] in
/-- What a request makes of the row of its key. -/
theorem follows_read {version : KeyVersion} (htimely : retries.Timely service keys)
    (h : world.OnCourse service retries catalog tables keys outcome)
    (hkey : world.keys (retries.keyName service) = some version)
    (hbare : (world.sessions i).Bare) :
    ((world.sessions i).readKey service (retries.mutations i) version).Follows service retries
      catalog tables keys world.tables outcome i := by
  have hdead : ∀ hexpired : ¬ (retries.attempt i).claimedAt < version.row.expiresAt,
      ¬ Live service retries keys := by
    rintro hexpired ⟨live, hlive, halive⟩
    cases outcome with
    | none =>
        obtain ⟨_, _, hkeys⟩ := h.phase
        obtain rfl : version = live := Option.some.inj ((hkey.symm.trans hkeys).trans hlive)
        exact hexpired (halive i)
    | some done => exact h.phase.1 ⟨live, hlive, halive⟩
  rcases readKey_cases service (world.sessions i) (retries.mutations i) version with
      ⟨failure, hlive, hwhy, hread⟩ | ⟨completion, hcompletion, hlive, hdigest, hread⟩ |
      ⟨hexpired, hread⟩ <;> rw [hread]
  · refine .inr (.inl ?_)
    rcases claim_of_read htimely h hkey with hfirst | ⟨_, hexpired⟩ | ⟨done, _, hrow, _⟩
    · exact hfirst.1
    · exact absurd hlive (hexpired i)
    · -- The row that the application left is completed and has the right digests.
      rw [hrow] at hwhy
      rcases hwhy with ⟨hdigest, _⟩ | ⟨hnone, _⟩ | ⟨⟨completion, hsome, hhash⟩, _⟩
      · exact absurd rfl hdigest
      · cases hnone
      · obtain rfl : _ = completion := Option.some.inj hsome
        exact absurd rfl hhash
  · refine ⟨⟨hbare.removed, hbare.inserted, hbare.staged⟩, ?_, by simp⟩
    rcases claim_of_read htimely h hkey with hfirst | ⟨_, hexpired⟩ | ⟨done, hdone, hrow, _⟩
    · exact .inl hfirst.1
    · exact absurd hlive (hexpired i)
    · rw [hrow] at hcompletion
      obtain rfl : _ = completion := Option.some.inj hcompletion
      exact .inr ⟨rfl, done.1, hdone⟩
  · exact ⟨hdead hexpired, hbare.inserted, hbare.staged⟩

omit [DecidableEq ι] [Fintype ι] in
/-- A key that is gone, or another version of it, was not live. -/
theorem dead_of_unread (h : world.OnCourse service retries catalog tables keys outcome)
    (hgone : ∀ version ∈ keys (retries.keyName service),
      world.keys (retries.keyName service) ≠ some version) :
    ¬ Live service retries keys := by
  rintro ⟨version, hversion, halive⟩
  cases outcome with
  | none =>
      obtain ⟨_, _, hkeys⟩ := h.phase
      exact hgone version hversion (hkeys.trans hversion)
  | some done => exact h.phase.1 ⟨version, hversion, halive⟩

omit [DecidableEq ι] [Fintype ι] in
/-- **What a move makes of a request** that is on its course. -/
theorem follows_move {session : Session} (htimely : retries.Timely service keys)
    (hfresh : ∀ i, (retries.input i).IsFresh tables)
    (h : world.OnCourse service retries catalog tables keys outcome)
    (hgood : ¬ world.Trips service retries (.proceed i))
    (hmove : Session.Move service retries.mutations world i session) :
    session.Follows service retries catalog tables keys world.tables outcome i := by
  have hfollows := h.follows i
  cases hmove with
  | begin hstage =>
      simp only [Session.Follows, hstage] at hfollows
      simp only [Retries.operation_eq, Session.Follows]
      exact ⟨hfollows.removed, hfollows.inserted, hfollows.staged⟩
  | lock hstage => simp only [Session.Follows, hstage] at hfollows
  | aggregate hstage => simp only [Session.Follows, hstage] at hfollows
  | selects version hstage hkey hlocked =>
      simp only [Session.Follows, hstage] at hfollows
      refine ⟨⟨hfollows.removed, hfollows.inserted, hfollows.staged⟩, fun hlive => ?_⟩
      rw [Retries.keyName_eq] at hkey
      cases outcome with
      | none => exact ⟨version, h.phase.2.2.symm.trans hkey, rfl⟩
      | some done => exact absurd hlive h.phase.1
  | read version hstage hkey hfree =>
      rw [Retries.keyName_eq] at hkey
      refine follows_read htimely h hkey ?_
      rcases hstage with hstage | hstage <;> simp only [Session.Follows, hstage] at hfollows
      · exact hfollows
      · exact hfollows.1
  | unread hstage =>
      simp only [Retries.keyName_eq] at hstage
      rcases hstage with ⟨hstage, hnone⟩ | ⟨tid, hstage, hgone⟩ <;>
        simp only [Session.Follows, hstage] at hfollows
      · refine ⟨dead_of_unread h fun version _ => ?_, hfollows.inserted, hfollows.staged⟩
        rw [hnone]
        intro h
        cases h
      · refine ⟨fun hlive => ?_, hfollows.1.inserted, hfollows.1.staged⟩
        obtain ⟨version, hversion, htid⟩ := hfollows.2 hlive
        refine dead_of_unread h (fun other hother hkept => ?_) hlive
        obtain rfl : version = other := Option.some.inj (hversion.symm.trans hother)
        exact hgone version hkept htid
  | deletes version hstage hkey hlocked =>
      simp only [Session.Follows, hstage] at hfollows
      exact hfollows
  | remove version hstage hkey hfree =>
      rcases hstage with hstage | hstage <;> simp only [Session.Follows, hstage] at hfollows <;>
        exact hfollows
  | unremoved hstage =>
      rcases hstage with ⟨hstage, _⟩ | ⟨tid, hstage, _⟩ <;>
        simp only [Session.Follows, hstage] at hfollows <;> exact hfollows
  | collide version hstage hfree hrival =>
      rw [Retries.keyName_eq] at hrival
      simp only [World.Trips, hstage] at hgood
      exact absurd ⟨hfree, by simp [hrival]⟩ hgood
  | insert hstage hfree hrival =>
      simp only [Session.Follows, hstage] at hfollows
      exact ⟨⟨hfollows.1, rfl⟩, hfollows.2.2⟩
  | throws failure aborted hthrows =>
      cases hthrows with
      | create refusal hstage hkind => simp at hkind
      | path caseId expectedRevision action hstage hbody hpath =>
          obtain ⟨rfl, rfl, rfl⟩ := Retries.body_eq hbody
          simp only [World.Trips, hstage] at hgood
          exact absurd hpath hgood
      | missing caseId expectedRevision action hstage hbody hnone =>
          obtain ⟨rfl, rfl, rfl⟩ := Retries.body_eq hbody
          exact .inr (refused_missing h hnone)
      | act record key caseId expectedRevision action refusal hstage hbody hrefused =>
          simp only [Session.Follows, hstage] at hfollows
          obtain ⟨rfl, rfl, rfl⟩ := Retries.body_eq hbody
          obtain ⟨_, _, _, _, hrecord⟩ := hfollows
          exact refused_apply hfresh h hrecord hrefused
      | respond record hstage hrejects =>
          simp only [World.Trips, hstage] at hgood
          exact absurd hrejects hgood
      | sealing record body refusal hstage => simp only [Session.Follows, hstage] at hfollows
      | mismatch body hstage hnone =>
          simp only [Session.Follows, hstage] at hfollows
          exact absurd ⟨rfl, rfl⟩ (hnone _ hfollows.1.2)
      | length body hstage hlength =>
          simp only [World.Trips, hstage] at hgood
          exact absurd hlength hgood
  | create out hstage hkind => simp at hkind
  | lockCase key record hstage hbody hfree hrecord =>
      simp only [Session.Follows, hstage] at hfollows
      obtain ⟨caseId, expectedRevision, action, hbody, rfl⟩ := hbody
      obtain ⟨rfl, rfl, rfl⟩ := Retries.body_eq hbody
      exact ⟨hfollows.1, hfollows.2, rfl, rfl, hrecord⟩
  | act record key caseId expectedRevision action out hstage hbody hout =>
      simp only [Session.Follows, hstage] at hfollows
      obtain ⟨rfl, rfl, rfl⟩ := Retries.body_eq hbody
      obtain ⟨hclaimed, _, rfl, hlock, hrecord⟩ := hfollows
      obtain rfl := first_of_applies h hrecord hout
      obtain ⟨_, htables, _⟩ := h.phase
      rw [htables] at hrecord
      rw [h.reads, htables] at hout
      exact ⟨hclaimed, rfl, hlock, hclaimed.1, record, out, hrecord, hout, rfl⟩
  | respond record hstage haccepts =>
      simp only [Session.Follows, hstage] at hfollows
      simp only [Retries.operation_eq, Session.Follows]
      exact ⟨hfollows.1, hfollows.2.1, hfollows.2.2.1, hfollows.2.2.2, hfollows.2.2.3⟩
  | sealing record body sealed hstage => simp only [Session.Follows, hstage] at hfollows
  | audit body hstage =>
      simp only [Session.Follows, hstage] at hfollows
      exact ⟨hfollows.1, hfollows.2.1, hfollows.2.2.1, hfollows.2.2.2, hfollows.2.2.3⟩
  | complete body row hstage hrow hmine =>
      simp only [Session.Follows, hstage] at hfollows
      obtain ⟨⟨hdead, hinserted⟩, hnone, hproduced⟩ := hfollows
      obtain rfl : _ = row := Option.some.inj (hinserted.symm.trans hrow)
      refine .inr ⟨?_, hnone, ?_, hproduced.1, hproduced.2, hproduced.3⟩
      · rw [Retries.operation_eq]
        rfl
      · rw [Retries.operation_eq]
        rfl
  | release failure hstage =>
      simp only [Session.Follows, hstage] at hfollows
      rcases hfollows with ⟨hconflict, halive⟩ | hfruitless
      · rw [Session.release, if_neg (by simp [halive])]
        exact .inl hconflict
      · rw [Session.release]
        split <;> exact .inr hfruitless
  | recognize status body auditId hstage hbody =>
      simp only [Session.Follows, hstage] at hfollows
      exact .inl ⟨⟨hfollows.1.removed, hfollows.1.inserted, hfollows.1.staged⟩, hfollows.2.1⟩
  | reject status body auditId hstage hbody =>
      simp only [Session.Follows, hstage] at hfollows
      exact hfollows.2.2
  | forget hstage hnone =>
      simp only [Session.Follows, hstage] at hfollows
      obtain ⟨tid, htid⟩ := Option.ne_none_iff_exists'.mp hfollows
      obtain ⟨version, hversion, _⟩ := h.exclusive.current i tid htid
      rw [hnone] at hversion
      cases hversion

/-! ## Commits -/

omit [DecidableEq ι] [Fintype ι] in
/-- A request that holds the lock of the case keeps the others away from it, so
that its commit leaves each of them on its course. -/
theorem follows_commit {j : ι} {body : JsString} {now : Tables} (hj : j ≠ i)
    (h : world.OnCourse service retries catalog tables keys none)
    (hdead : ¬ Live service retries keys)
    (hlock : (world.sessions i).caseLock = some retries.key) :
    (world.sessions j).Follows service retries catalog tables keys now (some (i, body)) j := by
  have hfree : (world.sessions j).caseLock ≠ some retries.key := h.exclusive.caseLock.free hlock j hj
  have hfollows := h.follows j
  cases hstage : (world.sessions j).stage with
  | acting record key =>
      simp only [Session.Follows, hstage] at hfollows
      exact absurd hfollows.2.2.2.1 hfree
  | responding | auditing | completing =>
      simp only [Session.Follows, hstage] at hfollows
      exact absurd hfollows.2.2.caseLock hfree
  | replaying status answer auditId =>
      simp only [Session.Follows, hstage] at hfollows
      rcases hfollows with ⟨_, hlive | ⟨_, _, hnone⟩, _⟩
      · exact absurd hlive hdead
      · cases hnone
  | committing status answer =>
      simp only [Session.Follows, hstage] at hfollows
      rcases hfollows with ⟨_, hlive | ⟨_, _, hnone⟩⟩ | ⟨_, _, _, hproduced⟩
      · exact absurd hlive hdead
      · cases hnone
      · exact absurd hproduced.caseLock hfree
  | done status answer =>
      simp only [Session.Follows, hstage] at hfollows
      rcases hfollows with hnone | hlive | ⟨_, _, hnone⟩
      · cases hnone
      · exact absurd hlive hdead
      · cases hnone
  | locking | locked | sealing => simp only [Session.Follows, hstage] at hfollows
  | _ =>
      simp only [Session.Follows, hstage] at hfollows ⊢
      exact hfollows

omit [Fintype ι] in
/-- **Commit of a request**: of a replay, or of the one that has applied the
action. -/
theorem onCourse_commit {status : Nat} {body : JsString}
    (h : world.OnCourse service retries catalog tables keys outcome)
    (hstage : (world.sessions i).stage = .committing status body)
    (hexclusive : (world.commit service (retries.mutations i) i (world.sessions i) status
      body).Exclusive service retries.mutations) :
    ∃ outcome', (world.commit service (retries.mutations i) i (world.sessions i) status
      body).OnCourse service retries catalog tables keys outcome' := by
  have hfollows := h.follows i
  simp only [Session.Follows, hstage] at hfollows
  have hother : ∀ j, j ≠ i → (world.commit service (retries.mutations i) i (world.sessions i) status
      body).sessions j = world.sessions j := fun j hj => put_other _ _ hj
  have hself : (world.commit service (retries.mutations i) i (world.sessions i) status
      body).sessions i = { (world.sessions i).close (.done status body) with
        applied := (world.sessions i).applied || (world.sessions i).staged.isSome } :=
    put_self _ _ _
  rcases hfollows with ⟨hbare, hreplays⟩ | ⟨rfl, rfl, hinserted, hproduced⟩
  · have hkeys : (world.commit service (retries.mutations i) i (world.sessions i) status
        body).keys = world.keys := by
      funext name
      rw [commit_keys, hbare.inserted, hbare.removed]
      simp
    have htables : (world.commit service (retries.mutations i) i (world.sessions i) status
        body).tables = world.tables := by
      show world.view (world.sessions i) = world.tables
      rw [World.view, hbare.staged]
    have happlied : ∀ j, ((world.commit service (retries.mutations i) i (world.sessions i) status
        body).sessions j).applied = (world.sessions j).applied := by
      intro j
      by_cases hj : j = i
      · rw [hj, hself, hbare.staged]
        simp
      · rw [hother j hj]
    refine ⟨outcome, h.reads, hexclusive, ?_, fun j => ?_⟩
    · have hphase := h.phase
      cases outcome with
      | none =>
          obtain ⟨hnone, hstart, hkey⟩ := hphase
          exact ⟨fun j => (happlied j).trans (hnone j), htables.trans hstart,
            (congrFun hkeys _).trans hkey⟩
      | some done =>
          obtain ⟨hdead, halone, hdone, ⟨tid, hrow⟩, record, out, hrecord, hout, hstart⟩ := hphase
          refine ⟨hdead, fun j => by rw [happlied, halone], ?_,
            ⟨tid, (congrFun hkeys _).trans hrow⟩, record, out, hrecord, hout,
            htables.trans hstart⟩
          have hne : done.1 ≠ i := by
            intro hsame
            rw [← hsame, hdone] at hstage
            cases hstage
          rw [hother _ hne, hdone]
    · by_cases hj : j = i
      · subst hj
        rw [hself]
        exact .inr hreplays
      · rw [hother j hj, htables]
        exact h.follows j
  · obtain ⟨hnone, hstart, _⟩ := h.phase
    obtain ⟨record, out, hrecord, hout, hstaged⟩ := hproduced.staged
    refine ⟨some (i, body), h.reads, hexclusive, ⟨hproduced.dead, ?_, ?_, ?_, record, out, hrecord,
      hout, ?_⟩, fun j => ?_⟩
    · intro j
      by_cases hj : j = i
      · rw [hj, hself, hstaged]
        simp
      · rw [hother j hj, hnone j]
        simp [hj]
    · rw [hself]
      rfl
    · refine ⟨world.nextTid, ?_⟩
      rw [commit_keys, Retries.keyName_eq, if_pos rfl, hinserted]
    · show world.view (world.sessions i) = tables.graft out.tables retries.key
      rw [World.view, hstaged, hstart]
    · by_cases hj : j = i
      · subst hj
        rw [hself]
        exact .inl rfl
      · rw [hother j hj]
        exact follows_commit hj h hproduced.dead hproduced.caseLock

/-! ## The law -/

/-- **Step lemma.** -/
theorem onCourse_step (htimely : retries.Timely service keys)
    (hfresh : ∀ i, (retries.input i).IsFresh tables)
    (h : ∃ outcome, world.OnCourse service retries catalog tables keys outcome)
    (hgood : ¬ world.Trips service retries (.proceed i)) :
    ∃ outcome, (world.step service retries.mutations (.proceed i)).OnCourse service retries catalog
      tables keys outcome := by
  obtain ⟨outcome, h⟩ := h
  have hexclusive := exclusive_step h.exclusive (.proceed i)
  obtain ⟨next, hnext, hchange⟩ := step_cases service retries.mutations world (.proceed i)
  rw [hnext] at hexclusive ⊢
  cases hchange with
  | wait _ => exact ⟨outcome, h⟩
  | move _ session hmove =>
      exact ⟨outcome, onCourse_put h (move_not_ended hmove) (move_taken hmove)
        (move_applied hmove) (follows_move htimely hfresh h hgood hmove)⟩
  | commit _ status body hstage => exact onCourse_commit h hstage hexclusive
  | invalidate _ version hstage hkey hfree =>
      -- The request holds the row that its own deletion waits for.
      have hfollows := h.follows i
      simp only [Session.Follows, hstage] at hfollows
      obtain ⟨tid, htid⟩ := Option.ne_none_iff_exists'.mp hfollows
      exact absurd rfl (unlocked_key_ne h.exclusive hkey hfree htid)

omit [DecidableEq ι] [Fintype ι] in
theorem appliedOnce_of_onCourse
    (h : ∃ outcome, world.OnCourse service retries catalog tables keys outcome) :
    world.AppliedOnce service retries catalog tables := by
  obtain ⟨outcome, h⟩ := h
  have hphase := h.phase
  cases outcome with
  | none => exact .inl ⟨hphase.1, hphase.2.1⟩
  | some done =>
      obtain ⟨hdead, halone, hdone, ⟨tid, hrow⟩, record, out, hrecord, hout, htables⟩ := hphase
      refine .inr ⟨done.1, done.2, ⟨halone, hdone, ⟨_, hrow, _, rfl, rfl, rfl⟩, record, out,
        hrecord, hout, htables⟩, fun j hj hended => ?_⟩
      have hfollows := h.follows j
      cases hstage : (world.sessions j).stage with
      | done status answer =>
          simp only [Session.Follows, hstage] at hfollows
          rcases hfollows with hmine | hlive | ⟨rfl, k, hsame⟩
          · exact absurd (congrArg Prod.fst (Option.some.inj hmine)).symm hj
          · exact absurd hlive hdead
          · left
            rw [Option.some.inj hsame]
      | failed failure =>
          simp only [Session.Follows, hstage] at hfollows
          rcases hfollows with hconflict | hlive | hfruitless
          · exact .inr ⟨failure, rfl, hconflict⟩
          · exact absurd hlive hdead
          · exact absurd hout (hfruitless record done.1 out hrecord)
      | _ => simp [hstage, Stage.ended] at hended

/-- **An update is applied once** under one key, and every other request that
ends has its response or a conflict, throughout every interleaving in which no
request trips.  The requests begin before the key runs out, and draw fresh
identifiers. -/
theorem updates_applied_once (service : Service) (retries : Retries ι) (catalog : Catalog)
    (tables : Tables) (keys : KeyName → Option KeyVersion) (nextTid : Nat)
    (htimely : retries.Timely service keys) (hfresh : ∀ i, (retries.input i).IsFresh tables)
    (schedule : List ι)
    (hgood : EachStep (World.step service retries.mutations)
      (fun world event => ¬ world.Trips service retries event)
      (.opening ι catalog tables keys nextTid) (schedule.map .proceed)) :
    Throughout (World.step service retries.mutations)
      (World.AppliedOnce service retries catalog tables)
      (.opening ι catalog tables keys nextTid) (schedule.map .proceed) := by
  have hopening : (World.opening ι catalog tables keys nextTid).OnCourse service retries catalog
      tables keys none :=
    ⟨rfl, exclusive_opening catalog tables keys nextTid, ⟨fun _ => rfl, rfl, rfl⟩,
      fun _ => ⟨rfl, rfl, rfl⟩⟩
  have hrun : ∀ (schedule : List ι) (world : World ι),
      (∃ outcome, world.OnCourse service retries catalog tables keys outcome) →
      EachStep (World.step service retries.mutations)
        (fun world event => ¬ world.Trips service retries event) world (schedule.map .proceed) →
      Throughout (World.step service retries.mutations)
        (World.AppliedOnce service retries catalog tables) world (schedule.map .proceed) := by
    intro schedule
    induction schedule with
    | nil => exact fun world h _ => appliedOnce_of_onCourse h
    | cons i schedule ih =>
        exact fun world h hgood => ⟨appliedOnce_of_onCourse h,
          ih _ (onCourse_step htimely hfresh h hgood.1) hgood.2⟩
  exact hrun schedule _ ⟨none, hopening⟩ hgood

/-! ## Two first uses of a key -/

/-- A case with one step, as a creation leaves it. -/
def sampleTables : Tables :=
  match create sampleHost sampleCatalog .empty sampleCreate with
  | .ok out => out.tables
  | .error _ => .empty

def sampleAttempt (n : Nat) : Attempt where
  requestId := sampleUuid 20
  credentialId := sampleUuid 8
  pathCaseId := some (sampleUuid 3)
  claimedAt := 10
  now := 10
  auditId := sampleUuid (n + 1)
  caseId := sampleUuid (n + 2)
  eventId := sampleUuid (n + 3)
  entityId := sampleUuid (n + 4)

def sampleRetries : Retries Bool where
  request := sampleUpdate.request
  caseId := sampleUuid 3
  expectedRevision := 1
  action := .appendNote (js "nota")
  body := rfl
  tenantId := 0x40008000000000000001
  tenant_lt := by decide
  principalId := 0x40008000000000000005
  idempotencyKey := sampleUuid 20
  attempt second := if second = true then sampleAttempt 40 else sampleAttempt 20

/-- The second request begins when the first has ended. -/
def sampleTurns : List Bool := List.replicate 12 false ++ List.replicate 5 true

theorem updates_applied_once_sample :
    Throughout (World.step sampleService sampleRetries.mutations)
      (World.AppliedOnce sampleService sampleRetries sampleCatalog sampleTables)
      (.opening Bool sampleCatalog sampleTables (fun _ => none) 0) (sampleTurns.map .proceed) := by
  have htimely : sampleRetries.Timely sampleService fun _ => none :=
    ⟨by decide, fun version hversion => nomatch hversion⟩
  have hfresh : ∀ i, (sampleRetries.input i).IsFresh sampleTables := by
    intro i
    cases i
    · exact ⟨⟨_, rfl, by decide +kernel⟩, ⟨_, rfl, by decide +kernel, by decide +kernel⟩⟩
    · exact ⟨⟨_, rfl, by decide +kernel⟩, ⟨_, rfl, by decide +kernel, by decide +kernel⟩⟩
  exact updates_applied_once sampleService sampleRetries sampleCatalog sampleTables _ 0 htimely
    hfresh sampleTurns (by decide +kernel)

/-- Both requests find no row to claim; the second then waits with its `INSERT`
until the first has committed. -/
def sampleRace : List Bool :=
  List.replicate 3 false ++ List.replicate 3 true ++ List.replicate 8 false ++ [true]

def sampleRaceEnd : World Bool :=
  run (World.step sampleService sampleRetries.mutations)
    (.opening Bool sampleCatalog sampleTables (fun _ => none) 0) (sampleRace.map .proceed)

omit [DecidableEq ι] [Fintype ι] in
/-- One request has applied the action and another leaves with an error that is
no conflict. -/
theorem not_appliedOnce_of_error {i j : ι} {failure : Failure} (hj : j ≠ i)
    (happlied : (world.sessions i).applied = true)
    (hstage : (world.sessions j).stage = .failed failure)
    (herror : normalizeError failure ∉ conflicts) :
    ¬ world.AppliedOnce service retries catalog tables := by
  rintro (⟨hnone, _⟩ | ⟨k, body, hdone, hothers⟩)
  · exact absurd (hnone i) (by simp [happlied])
  · obtain rfl : i = k := (hdone.alone i).mp happlied
    rcases hothers j hj (by rw [hstage]; rfl) with hsame | ⟨other, hother, hconflict⟩
    · exact nomatch hstage.symm.trans hsame
    · obtain rfl : failure = other := Stage.failed.inj (hstage.symm.trans hother)
      exact herror hconflict

theorem second_claim_collides :
    (sampleRaceEnd.sessions false).applied = true ∧
      (sampleRaceEnd.sessions true).stage = .failed
        (Refusal.duplicate "procedure_case_idempotency_pkey").thrown ∧
      normalizeError (Refusal.duplicate "procedure_case_idempotency_pkey").thrown =
        (500, "internal_error") ∧
      ¬ Throughout (World.step sampleService sampleRetries.mutations)
        (World.AppliedOnce sampleService sampleRetries sampleCatalog sampleTables)
        (.opening Bool sampleCatalog sampleTables (fun _ => none) 0) (sampleRace.map .proceed) := by
  have happlied : (sampleRaceEnd.sessions false).applied = true := by decide +kernel
  have hfailed : (sampleRaceEnd.sessions true).stage = .failed
      (Refusal.duplicate "procedure_case_idempotency_pkey").thrown := by decide +kernel
  refine ⟨happlied, hfailed, rfl, fun hlaw => ?_⟩
  exact not_appliedOnce_of_error (by decide) happlied hfailed (by decide) (throughout_end hlaw)

end Cases
