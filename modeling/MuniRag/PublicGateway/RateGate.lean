import MuniRag.Api.DerivedIds
import MuniRag.Ingestion.Identity
import MuniRag.Lib.FixedWindow
import MuniRag.Lib.JsMap
import MuniRag.Lib.Table

/-!
# The rate gate of the public endpoints

The query endpoint and the procedure endpoint run one gate: a request is counted for all
clients together and then, if that lets it pass, for its own client.  A request that its own
limit stops stays counted for all, so the other clients can be stopped earlier because of it
(`room_taken`); `rateGate_fair` says when that makes a difference and what the gate
guarantees in any case, over the store in memory and over the table.
-/

namespace PublicGateway

open FixedWindow

/-! ## Requests and settings -/

/-- The digests of `node:crypto`, in hexadecimal. -/
structure Digests where
  sha256Hex : JsString → JsString
  hmacHex : JsString → JsString → JsString
  length_sha256Hex : ∀ text, (sha256Hex text).length = 64
  length_hmacHex : ∀ secret text, (hmacHex secret text).length = 64

/-- The settings that `createPublicQueryDependencies` lets pass. -/
structure Gateway where
  tenantId : JsString
  clientKeySecret : JsString
  rateLimit : Nat
  globalRateLimit : Nat
  rateWindowSeconds : Nat
  rateLimit_within : 1 ≤ rateLimit ∧ rateLimit ≤ 1000
  globalRateLimit_within : rateLimit ≤ globalRateLimit ∧ globalRateLimit ≤ 100000
  rateWindowSeconds_within : 10 ≤ rateWindowSeconds ∧ rateWindowSeconds ≤ 3600

inductive Endpoint
  | query
  | procedure
  deriving DecidableEq, Repr

/-- What the gate reads of one request and of the clocks and the generator of identifiers while
it serves the request. -/
structure GateRequest where
  endpoint : Endpoint
  remoteAddress : Option JsString
  /-- The header, if there is one of it. -/
  userAgent : Option JsString
  requestId : JsString
  now : Time
  /-- The clock of the store in memory. -/
  repositoryNow : Time
  globalAuditId : Uuid
  clientAuditId : Uuid
  deriving DecidableEq, Repr

inductive RateOperation
  | publicQueryGlobalV1
  | publicQueryClientV1
  deriving DecidableEq, Repr

def RateOperation.text : RateOperation → JsString
  | .publicQueryGlobalV1 => js "public_query_" ++ js "global_v1"
  | .publicQueryClientV1 => js "public_query_" ++ js "client_v1"

structure RateInput where
  tenantId : JsString
  clientKeySha256 : JsString
  operation : RateOperation
  limit : Nat
  windowSeconds : Nat
  now : Time
  blockedAuditId : Uuid
  deriving DecidableEq, Repr

structure RateDecision where
  allowed : Bool
  retryAfterSeconds : Int
  auditId : Option Uuid
  shouldAudit : Option Bool
  deriving DecidableEq, Repr

structure AuditInput where
  auditId : Uuid
  tenantId : JsString
  requestId : JsString
  operation : JsString
  eventType : JsString
  outcome : JsString
  reasonCode : JsString
  deriving DecidableEq, Repr

/-- `PublicQueryRepository`, over the state of the store; what fails is rolled back and has no
place in the runs. -/
structure Repository (σ : Type) where
  consumeRateLimit : RateInput → σ → RateDecision × σ
  recordAudit : AuditInput → σ → σ

/-! ## The gate -/

/-- `.replace(CONTROL_CHARACTER, " ")`: the first one only. -/
def replaceControl : JsString → JsString
  | [] => []
  | u :: rest => if Ingestion.isControl u then 0x20 :: rest else u :: replaceControl rest

variable (digests : Digests) (gateway : Gateway)

def clientKey (request : GateRequest) (secret : JsString) : JsString :=
  let address := match (request.remoteAddress.map (·.take 128)).getD [] with
    | [] => js "unknown"
    | address => address
  let userAgent := (replaceControl (request.userAgent.getD (js "unknown"))).take 256
  digests.hmacHex secret (address ++ [0x0a] ++ userAgent)

/-- The counter of all clients. -/
def globalInput (request : GateRequest) : RateInput where
  tenantId := gateway.tenantId
  clientKeySha256 := digests.sha256Hex (js "public-query-" ++ js "global-v1")
  operation := .publicQueryGlobalV1
  limit := gateway.globalRateLimit
  windowSeconds := gateway.rateWindowSeconds
  now := request.now
  blockedAuditId := request.globalAuditId

/-- The counter of the client. -/
def clientInput (request : GateRequest) : RateInput where
  tenantId := gateway.tenantId
  clientKeySha256 := clientKey digests request gateway.clientKeySecret
  operation := .publicQueryClientV1
  limit := gateway.rateLimit
  windowSeconds := gateway.rateWindowSeconds
  now := request.now
  blockedAuditId := request.clientAuditId

/-- In the order in which they are consumed. -/
def rateInputs (request : GateRequest) : List RateInput :=
  [globalInput digests gateway request, clientInput digests gateway request]

/-- The audit entry of a blocked request. -/
def audit (endpoint : Endpoint) (auditId : Uuid) (tenantId requestId : JsString) : AuditInput where
  auditId := auditId
  tenantId := tenantId
  requestId := requestId
  operation := match endpoint with
    | .query => js "public_query_v1"
    | .procedure => js "public_procedure_v1"
  eventType := match endpoint with
    | .query => js "public.query.blocked"
    | .procedure => js "public.procedure.blocked"
  outcome := js "blocked"
  reasonCode := js "rate_limit_exceeded"

variable {σ : Type}

/-- The loop of `runRateGate`: the decision that blocks the request, with its input. -/
def consumeAll (repository : Repository σ) (request : GateRequest) :
    List RateInput → σ → Option (RateInput × RateDecision) × σ
  | [], state => (none, state)
  | input :: rest, state =>
      let (decision, state) := repository.consumeRateLimit input state
      if decision.allowed then consumeAll repository request rest state
      else if decision.shouldAudit ≠ some false then
        (some (input, decision), repository.recordAudit (audit request.endpoint
          (decision.auditId.getD input.blockedAuditId) input.tenantId request.requestId) state)
      else (some (input, decision), state)

/-- `runRateGate`, which the two endpoints have in the same words. -/
def runRateGate (repository : Repository σ) (request : GateRequest) (state : σ) :
    Option (RateInput × RateDecision) × σ :=
  consumeAll repository request (rateInputs digests gateway request) state

/-- A request with the decision that blocked it, if one did. -/
abbrev Entry := GateRequest × Option (RateInput × RateDecision)

/-- Requests one after the other; the store may depend on the request through its clock. -/
def serveFrom (repository : GateRequest → Repository σ) : List GateRequest → σ → List Entry × σ
  | [], state => ([], state)
  | request :: rest, state =>
      let (blocked, state) := runRateGate digests gateway (repository request) request state
      let (entries, state) := serveFrom repository rest state
      ((request, blocked) :: entries, state)

/-! ## The store in memory -/

/-- `Math.floor(epoch / (windowSeconds * 1000))`. -/
def bucketOf (windowSeconds : Nat) (now : Time) : Int := now / (windowSeconds * 1000)

structure Counter where
  count : Nat
  auditId : Option Uuid
  deriving DecidableEq, Repr

structure MemoryState where
  rateLimits : JsMap JsString Counter
  rateDecisions : List RateInput
  audits : List AuditInput

def rateKey (input : RateInput) : JsString :=
  input.tenantId ++ js ":" ++ input.clientKeySha256 ++ js ":" ++ input.operation.text ++ js ":" ++
    Api.numberText (bucketOf input.windowSeconds input.now)

/-- `InMemoryPublicQueryRepository` while its clock shows the time. -/
def inMemory (clock : Time) : Repository MemoryState where
  consumeRateLimit input state :=
    let key := rateKey input
    let existing := (JsMap.get state.rateLimits key).getD ⟨0, none⟩
    let count := existing.count + 1
    let auditId := if count = input.limit + 1 then some input.blockedAuditId else existing.auditId
    let retryAfterSeconds :=
      max 1 ((input.windowSeconds : Int) - clock / 1000 % input.windowSeconds)
    let decision : RateDecision :=
      if count ≤ input.limit then
        { allowed := true, retryAfterSeconds, auditId := none, shouldAudit := none }
      else
        { allowed := false, retryAfterSeconds
          auditId := some (auditId.getD input.blockedAuditId)
          shouldAudit := some (count = input.limit + 1) }
    (decision,
      { state with
        rateLimits := JsMap.set state.rateLimits key ⟨count, auditId⟩
        rateDecisions := state.rateDecisions ++ [input] })
  recordAudit input state := { state with audits := state.audits ++ [input] }

/-! ## The table -/

structure RateRow where
  tenantId : JsString
  clientKeySha256 : JsString
  operation : RateOperation
  /-- In seconds since the epoch. -/
  windowStartedAt : Int
  requestCount : Nat
  blockedAuditId : Option Uuid
  deriving DecidableEq, Repr

structure TableState where
  rows : List RateRow
  events : List AuditInput

/-- The row is that of the counter: the primary key. -/
def RateRow.IsOf (input : RateInput) (row : RateRow) : Prop :=
  row.tenantId = input.tenantId ∧ row.clientKeySha256 = input.clientKeySha256 ∧
    row.operation = input.operation ∧
    row.windowStartedAt = bucketOf input.windowSeconds input.now * input.windowSeconds

instance (input : RateInput) : DecidablePred (RateRow.IsOf input) :=
  fun _ => inferInstanceAs (Decidable (_ ∧ _))

/-- The rows that the `DELETE` removes. -/
def RateRow.Expired (input : RateInput) (row : RateRow) : Prop :=
  row.tenantId = input.tenantId ∧
    row.windowStartedAt * 1000 < input.now - max 86400 (input.windowSeconds * 4) * 1000

instance (input : RateInput) : DecidablePred (RateRow.Expired input) :=
  fun _ => inferInstanceAs (Decidable (_ ∧ _))

/-- `DO UPDATE SET`. -/
def RateRow.consume (input : RateInput) (row : RateRow) : RateRow :=
  { row with
    requestCount := min (row.requestCount + 1) 1000000
    blockedAuditId :=
      if row.requestCount + 1 = input.limit + 1 then some input.blockedAuditId
      else row.blockedAuditId }

/-- `VALUES`. -/
def RateRow.fresh (input : RateInput) : RateRow where
  tenantId := input.tenantId
  clientKeySha256 := input.clientKeySha256
  operation := input.operation
  windowStartedAt := bucketOf input.windowSeconds input.now * input.windowSeconds
  requestCount := 1
  blockedAuditId := none

/-- The seconds, rounded up, until the window of the row ends. -/
def RateRow.retryAfterSeconds (input : RateInput) (row : RateRow) : Int :=
  max 1 (-((input.now - (row.windowStartedAt + input.windowSeconds) * 1000) / 1000))

/-- `PostgresPublicQueryRepository`. -/
def postgres : Repository TableState where
  consumeRateLimit input state :=
    let kept := state.rows.filter fun row => ¬ row.Expired input
    let (row, rows) := match kept.find? fun row => row.IsOf input with
      | some row => (row.consume input,
          Table.updateWhere (RateRow.IsOf input) (RateRow.consume input) kept)
      | none => (RateRow.fresh input, kept ++ [RateRow.fresh input])
    ({ allowed := row.requestCount ≤ input.limit
       retryAfterSeconds := row.retryAfterSeconds input
       auditId := row.blockedAuditId
       shouldAudit := some (row.blockedAuditId = some input.blockedAuditId) },
      { state with rows := rows })
  recordAudit input state := { state with events := state.events ++ [input] }

/-! ## What a store must do -/

/-- The inputs are counted together. -/
def RateInput.SameCounter (i j : RateInput) : Prop :=
  i.operation = j.operation ∧ i.clientKeySha256 = j.clientKeySha256 ∧
    bucketOf i.windowSeconds i.now = bucketOf j.windowSeconds j.now

instance (i j : RateInput) : Decidable (i.SameCounter j) := inferInstanceAs (Decidable (_ ∧ _))

/-- How often the counter of the input has been consumed. -/
def countOf (history : List RateInput) (input : RateInput) : Nat :=
  (history.filter fun other => other.SameCounter input).length

/-- The input is one of some request to this gateway. -/
def Ours (input : RateInput) : Prop := ∃ request, input ∈ rateInputs digests gateway request

/-- The store counts: `Holds` connects its state with the inputs consumed so far, and `Admits`
says which inputs may come next. -/
structure Counts (repository : Repository σ) (audits : σ → List AuditInput)
    (Admits : List RateInput → RateInput → Prop) (Holds : List RateInput → σ → Prop) : Prop where
  consume : ∀ {history input state}, Holds history state → Ours digests gateway input →
    Admits history input → ∀ {decision next},
    repository.consumeRateLimit input state = (decision, next) →
      Holds (history ++ [input]) next ∧ audits next = audits state ∧
        (decision.allowed = true ↔ countOf history input < input.limit) ∧
        (input.limit ≤ countOf history input →
          decision.shouldAudit = some (decide (countOf history input = input.limit)))
  record : ∀ {history state input}, Holds history state →
    Holds history (repository.recordAudit input state) ∧
      audits (repository.recordAudit input state) = audits state ++ [input]

/-- The counters of the gateway: windows of requests, by client. -/
def rateGate : Gate GateRequest Int JsString where
  window request := bucketOf gateway.rateWindowSeconds request.now
  client request := clientKey digests request gateway.clientKeySecret
  globalLimit := gateway.globalRateLimit
  clientLimit := gateway.rateLimit

/-- The audit entry of a request, if it has one. -/
def Entry.audit : Entry → Option AuditInput
  | (_, none) => none
  | (request, some (input, decision)) =>
      if decision.shouldAudit ≠ some false then
        some (PublicGateway.audit request.endpoint (decision.auditId.getD input.blockedAuditId)
          input.tenantId request.requestId)
      else none

/-- The counter that blocked the request, and whether this is audited. -/
def verdictOf : Option (RateInput × RateDecision) → Verdict
  | none => .allowed
  | some (input, decision) =>
      match input.operation with
      | .publicQueryGlobalV1 => .globalBlocked (decision.shouldAudit ≠ some false)
      | .publicQueryClientV1 => .clientBlocked (decision.shouldAudit ≠ some false)

/-- The inputs that a request with this verdict consumes. -/
def consumedBy (entry : GateRequest × Verdict) : List RateInput :=
  match entry.2 with
  | .globalBlocked _ => [globalInput digests gateway entry.1]
  | _ => rateInputs digests gateway entry.1

def historyOf (done : List GateRequest) : List RateInput :=
  ((rateGate digests gateway).judged done).flatMap (consumedBy digests gateway)

/-! ## Counters and requests -/

section History

variable {digests gateway} {done : List GateRequest} {request r : GateRequest}
  {history others : List RateInput} {input : RateInput}

theorem countOf_append : countOf (history ++ others) input =
    countOf history input + countOf others input := by
  rw [countOf, List.filter_append, List.length_append]
  rfl

theorem historyOf_concat : historyOf digests gateway (done ++ [r]) =
    historyOf digests gateway done ++
      consumedBy digests gateway (r, (rateGate digests gateway).verdict done r) := by
  rw [historyOf, judged_concat, List.flatMap_append, List.flatMap_singleton]
  rfl

theorem countOf_consumedBy_global (verdict : Verdict) :
    countOf (consumedBy digests gateway (r, verdict)) (globalInput digests gateway request) =
      if (rateGate digests gateway).window r = (rateGate digests gateway).window request
      then 1 else 0 := by
  have hown : (globalInput digests gateway r).SameCounter (globalInput digests gateway request) ↔
      (rateGate digests gateway).window r = (rateGate digests gateway).window request :=
    ⟨fun h => h.2.2, fun h => ⟨rfl, rfl, h⟩⟩
  have hother : ¬ (clientInput digests gateway r).SameCounter
      (globalInput digests gateway request) := fun h => RateOperation.noConfusion h.1
  cases verdict <;> by_cases hw : (rateGate digests gateway).window r =
    (rateGate digests gateway).window request <;>
    simp [consumedBy, rateInputs, countOf, hown, hother, hw]

/-- The counter of all has counted the requests of the window. -/
theorem countOf_global : countOf (historyOf digests gateway done)
    (globalInput digests gateway request) = ((rateGate digests gateway).inWindow
      ((rateGate digests gateway).window request) done).length := by
  induction done using List.reverseRecOn with
  | nil => rfl
  | append_singleton done r ih =>
      rw [historyOf_concat, countOf_append, ih, countOf_consumedBy_global, inWindow_concat]
      by_cases hw : (rateGate digests gateway).window r =
          (rateGate digests gateway).window request
      · rw [if_pos hw, if_pos hw, List.length_append, List.length_singleton]
      · rw [if_neg hw, if_neg hw, Nat.add_zero]

theorem countOf_consumedBy_client {verdict : Verdict} (hroom : ∀ first,
      (rateGate digests gateway).window r = (rateGate digests gateway).window request →
        verdict ≠ .globalBlocked first) :
    countOf (consumedBy digests gateway (r, verdict)) (clientInput digests gateway request) =
      if (rateGate digests gateway).window r = (rateGate digests gateway).window request ∧
        (rateGate digests gateway).client r = (rateGate digests gateway).client request
      then 1 else 0 := by
  have hown : (clientInput digests gateway r).SameCounter (clientInput digests gateway request) ↔
      (rateGate digests gateway).window r = (rateGate digests gateway).window request ∧
        (rateGate digests gateway).client r = (rateGate digests gateway).client request :=
    ⟨fun h => ⟨h.2.2, h.2.1⟩, fun h => ⟨rfl, h.2, h.1⟩⟩
  have hother : ¬ (globalInput digests gateway r).SameCounter
      (clientInput digests gateway request) := fun h => RateOperation.noConfusion h.1
  by_cases hmine : (rateGate digests gateway).window r = (rateGate digests gateway).window request ∧
      (rateGate digests gateway).client r = (rateGate digests gateway).client request
  · cases verdict with
    | globalBlocked first => exact absurd rfl (hroom first hmine.1)
    | allowed => simp [consumedBy, rateInputs, countOf, hown, hother, hmine]
    | clientBlocked first => simp [consumedBy, rateInputs, countOf, hown, hother, hmine]
  · rw [if_neg hmine]
    cases verdict <;> simp [consumedBy, rateInputs, countOf, hown, hother, hmine]

/-- The counter of a client has counted its requests, as long as the window is not over full. -/
theorem countOf_client (hroom : ((rateGate digests gateway).inWindow
      ((rateGate digests gateway).window request) done).length ≤ gateway.globalRateLimit) :
    countOf (historyOf digests gateway done) (clientInput digests gateway request) =
      ((rateGate digests gateway).ofClient ((rateGate digests gateway).window request)
        ((rateGate digests gateway).client request) done).length := by
  induction done using List.reverseRecOn with
  | nil => rfl
  | append_singleton done r ih =>
      rw [inWindow_concat] at hroom
      have hbefore : ((rateGate digests gateway).inWindow
          ((rateGate digests gateway).window request) done).length ≤ gateway.globalRateLimit := by
        split_ifs at hroom
        · rw [List.length_append] at hroom
          omega
        · exact hroom
      have hpassed : ∀ first, (rateGate digests gateway).window r =
          (rateGate digests gateway).window request →
            (rateGate digests gateway).verdict done r ≠ .globalBlocked first := by
        intro first hw hblocked
        rw [if_pos hw, List.length_append, List.length_singleton] at hroom
        have hfull : ¬ gateway.globalRateLimit ≤ ((rateGate digests gateway).inWindow
            ((rateGate digests gateway).window request) done).length := by omega
        rw [Gate.verdict, hw] at hblocked
        rw [if_neg (show ¬ (rateGate digests gateway).globalLimit ≤ _ from hfull)] at hblocked
        split at hblocked <;> cases hblocked
      rw [historyOf_concat, countOf_append, ih hbefore, countOf_consumedBy_client hpassed,
        ofClient_concat]
      by_cases hmine : (rateGate digests gateway).window r =
          (rateGate digests gateway).window request ∧
            (rateGate digests gateway).client r = (rateGate digests gateway).client request
      · rw [if_pos hmine, if_pos hmine, List.length_append, List.length_singleton]
      · rw [if_neg hmine, if_neg hmine, Nat.add_zero]

end History

/-! ## One request and a run -/

section Runs

variable {digests gateway} {repository : Repository σ} {audits : σ → List AuditInput}
  {Admits : List RateInput → RateInput → Prop} {Holds : List RateInput → σ → Prop}
  {done rest : List GateRequest} {request : GateRequest} {state next : σ}
  {inputs : List RateInput} {input : RateInput} {decision : RateDecision}

/-- The counter lets the request pass, or blocks it with an audit entry or without one. -/
theorem consumeAll_cons
    (hconsume : repository.consumeRateLimit input state = (decision, next)) :
    consumeAll repository request (input :: inputs) state =
      if decision.allowed then consumeAll repository request inputs next
      else (some (input, decision), match Entry.audit (request, some (input, decision)) with
        | some entry => repository.recordAudit entry next
        | none => next) := by
  rw [consumeAll, hconsume]
  by_cases hallowed : decision.allowed = true
  · simp only [hallowed, if_true]
  · by_cases haudit : decision.shouldAudit = some false
    · simp [hallowed, haudit, Entry.audit]
    · simp [hallowed, haudit, Entry.audit]

/-- A blocked request keeps what the store holds, and its audit entry is recorded. -/
theorem Counts.blocked (hcounts : Counts digests gateway repository audits Admits Holds)
    {history : List RateInput} {entry : Entry} (hholds : Holds history state) :
    let final := match Entry.audit entry with
      | some entry => repository.recordAudit entry state
      | none => state
    Holds history final ∧ audits final = audits state ++ (Entry.audit entry).toList := by
  cases Entry.audit entry with
  | none => exact ⟨hholds, (List.append_nil _).symm⟩
  | some _ => exact hcounts.record hholds

theorem audited_decide (p : Prop) [Decidable p] :
    decide (some (decide p) ≠ some false) = decide p := by
  by_cases hp : p <;> simp [hp]

/-- **One request.**  The gate decides by the two counts of the window, and records an audit entry
for the first request that meets a limit. -/
theorem Counts.runRateGate (hcounts : Counts digests gateway repository audits Admits Holds)
    (hholds : Holds (historyOf digests gateway done) state)
    (hall : Admits (historyOf digests gateway done) (globalInput digests gateway request))
    (hown : Admits (historyOf digests gateway done ++ [globalInput digests gateway request])
      (clientInput digests gateway request))
    {blocked : Option (RateInput × RateDecision)} {final : σ}
    (hrun : runRateGate digests gateway repository request state = (blocked, final)) :
    verdictOf blocked = (rateGate digests gateway).verdict done request ∧
      Holds (historyOf digests gateway (done ++ [request])) final ∧
      audits final = audits state ++ (Entry.audit (request, blocked)).toList := by
  obtain ⟨⟨first, middle⟩, hfirst⟩ : ∃ out, repository.consumeRateLimit
      (globalInput digests gateway request) state = out := ⟨_, rfl⟩
  obtain ⟨hmiddle, hquiet, hallowed, haudit⟩ := hcounts.consume hholds
    ⟨request, List.mem_cons_self⟩ hall hfirst
  rw [countOf_global] at hallowed haudit
  rw [PublicGateway.runRateGate, rateInputs, consumeAll_cons hfirst] at hrun
  rw [historyOf_concat]
  by_cases hroom : ((rateGate digests gateway).inWindow
      ((rateGate digests gateway).window request) done).length < gateway.globalRateLimit
  · -- The client's own counter decides.
    rw [if_pos (hallowed.mpr hroom)] at hrun
    obtain ⟨⟨second, last⟩, hsecond⟩ : ∃ out, repository.consumeRateLimit
        (clientInput digests gateway request) middle = out := ⟨_, rfl⟩
    obtain ⟨hlast, hquiet', hallowed', haudit'⟩ := hcounts.consume hmiddle
      ⟨request, List.mem_cons_of_mem _ List.mem_cons_self⟩ hown hsecond
    have hnew : ¬ (globalInput digests gateway request).SameCounter
        (clientInput digests gateway request) := fun h => RateOperation.noConfusion h.1
    have hcount : countOf (historyOf digests gateway done ++ [globalInput digests gateway request])
        (clientInput digests gateway request) = ((rateGate digests gateway).ofClient
          ((rateGate digests gateway).window request)
          ((rateGate digests gateway).client request) done).length := by
      rw [countOf_append, countOf_client hroom.le]
      simp [countOf, hnew]
    rw [hcount] at hallowed' haudit'
    rw [consumeAll_cons hsecond] at hrun
    have hpassed : ¬ (rateGate digests gateway).globalLimit ≤ ((rateGate digests gateway).inWindow
        ((rateGate digests gateway).window request) done).length := not_le.mpr hroom
    rw [List.append_assoc] at hlast
    by_cases hfree : ((rateGate digests gateway).ofClient ((rateGate digests gateway).window request)
        ((rateGate digests gateway).client request) done).length < gateway.rateLimit
    · rw [if_pos (hallowed'.mpr hfree)] at hrun
      cases hrun
      have hverdict : (rateGate digests gateway).verdict done request = .allowed :=
        verdict_allowed_iff.mpr ⟨hroom, hfree⟩
      rw [hverdict]
      refine ⟨rfl, hlast, ?_⟩
      rw [hquiet', hquiet]
      exact (List.append_nil _).symm
    · rw [if_neg fun h => hfree (hallowed'.mp h)] at hrun
      cases hrun
      have hspent : gateway.rateLimit ≤ _ := not_lt.mp hfree
      have hverdict : (rateGate digests gateway).verdict done request =
          verdictOf (some (clientInput digests gateway request, second)) := by
        rw [Gate.verdict, if_neg hpassed, if_pos (show (rateGate digests gateway).clientLimit ≤ _ from hspent)]
        change _ = Verdict.clientBlocked (second.shouldAudit ≠ some false)
        rw [haudit' hspent, audited_decide]
        rfl
      obtain ⟨hfinal, hrecorded⟩ := @Counts.blocked _ _ _ _ _ _ _ _ hcounts _
        (request, some (clientInput digests gateway request, second)) hlast
      rw [hverdict]
      refine ⟨rfl, hfinal, ?_⟩
      rw [← hquiet, ← hquiet']
      exact hrecorded
  · rw [if_neg fun h => hroom (hallowed.mp h)] at hrun
    cases hrun
    have hfull : gateway.globalRateLimit ≤ _ := not_lt.mp hroom
    have hverdict : (rateGate digests gateway).verdict done request =
        verdictOf (some (globalInput digests gateway request, first)) := by
      rw [Gate.verdict, if_pos (show (rateGate digests gateway).globalLimit ≤ _ from hfull)]
      change _ = Verdict.globalBlocked (first.shouldAudit ≠ some false)
      rw [haudit hfull, audited_decide]
      rfl
    obtain ⟨hfinal, hrecorded⟩ := @Counts.blocked _ _ _ _ _ _ _ _ hcounts _
      (request, some (globalInput digests gateway request, first)) hmiddle
    rw [hverdict]
    refine ⟨rfl, hfinal, ?_⟩
    rw [← hquiet]
    exact hrecorded

/-- Each request of the run finds the store ready for its inputs. -/
def AdmitsRun (Admits : List RateInput → RateInput → Prop) (run : List GateRequest) : Prop :=
  ∀ done request rest, run = done ++ request :: rest →
    Admits (historyOf digests gateway done) (globalInput digests gateway request) ∧
      Admits (historyOf digests gateway done ++ [globalInput digests gateway request])
        (clientInput digests gateway request)

/-- **A run.**  The verdicts are those of the two counts, and the audit entries those of the
verdicts. -/
theorem Counts.serveFrom {repository : GateRequest → Repository σ}
    (hcounts : ∀ request, Counts digests gateway (repository request) audits Admits Holds)
    (hholds : Holds (historyOf digests gateway done) state)
    (hadmits : @AdmitsRun digests gateway Admits (done ++ rest))
    {entries : List Entry} {final : σ}
    (hrun : serveFrom digests gateway repository rest state = (entries, final)) :
    entries.map (fun entry => (entry.1, verdictOf entry.2)) =
        (rateGate digests gateway).judgedFrom done rest ∧
      audits final = audits state ++ entries.filterMap Entry.audit := by
  induction rest generalizing done state entries final with
  | nil =>
      cases hrun
      exact ⟨rfl, (List.append_nil _).symm⟩
  | cons request rest ih =>
      obtain ⟨⟨blocked, middle⟩, hfirst⟩ : ∃ out, PublicGateway.runRateGate digests gateway
          (repository request) request state = out := ⟨_, rfl⟩
      obtain ⟨⟨others, last⟩, hrest⟩ : ∃ out, PublicGateway.serveFrom digests gateway repository
          rest middle = out := ⟨_, rfl⟩
      rw [PublicGateway.serveFrom, hfirst] at hrun
      simp only [hrest] at hrun
      cases hrun
      obtain ⟨hall, hown⟩ := hadmits done request rest rfl
      obtain ⟨hverdict, hmiddle, haudits⟩ :=
        (hcounts request).runRateGate hholds hall hown hfirst
      rw [List.append_cons] at hadmits
      obtain ⟨hentries, hlast⟩ := ih hmiddle hadmits hrest
      refine ⟨?_, ?_⟩
      · rw [List.map_cons, hentries, Gate.judgedFrom, hverdict]
      · rw [hlast, haudits, List.append_assoc]
        cases haudit : Entry.audit (request, blocked) with
        | none => simp [haudit]
        | some _ => simp [haudit]

end Runs

/-! ## What is promised of a run -/

/-- The requests of a client, with whether they are let through. -/
def decisionsOf (b : JsString) (entries : List Entry) : List (GateRequest × Bool) :=
  (entries.filter fun entry => (rateGate digests gateway).client entry.1 = b).map fun entry =>
    (entry.1, decide (entry.2 = none))

/-- A blocked request of another client. -/
def BlockedOther (b : JsString) (entry : Entry) : Prop :=
  entry.2 ≠ none ∧ (rateGate digests gateway).client entry.1 ≠ b

instance (b : JsString) : DecidablePred (BlockedOther digests gateway b) :=
  fun _ => inferInstanceAs (Decidable (_ ∧ _))

/-- The counter of the operation blocked the request, and the block is audited. -/
def Entry.auditedBy (operation : RateOperation) : Entry → Bool
  | (_, none) => false
  | (request, some (input, decision)) =>
      decide (input.operation = operation) &&
        (Entry.audit (request, some (input, decision))).isSome

/-- **What the gate guarantees of a run.**  `serve` gives the entries and the audit entries that
the store has in the end. -/
structure FairGate (serve : List GateRequest → List Entry × List AuditInput)
    (run : List GateRequest) : Prop where
  /-- Blocked requests of others change nothing for a client unless they took room from it. -/
  unaffected : ∀ b, (∀ kept, Removes (BlockedOther digests gateway b) Prod.fst (serve run).1 kept →
    decisionsOf digests gateway b (serve kept).1 = decisionsOf digests gateway b (serve run).1) ↔
      (rateGate digests gateway).NoRoomTaken b run
  ofClient : ∀ w c, ((serve run).1.filter fun entry => entry.2 = none ∧
    (rateGate digests gateway).window entry.1 = w ∧
      (rateGate digests gateway).client entry.1 = c).length ≤ gateway.rateLimit
  ofAll : ∀ w, ((serve run).1.filter fun entry => entry.2 = none ∧
    (rateGate digests gateway).window entry.1 = w).length ≤ gateway.globalRateLimit
  recorded : (serve run).2 = (serve run).1.filterMap Entry.audit
  auditedAll : ∀ w, ((serve run).1.filter fun entry => entry.auditedBy .publicQueryGlobalV1 ∧
    (rateGate digests gateway).window entry.1 = w).length =
      if gateway.globalRateLimit < ((rateGate digests gateway).inWindow w run).length then 1 else 0
  auditedOf : ∀ w c, ((serve run).1.filter fun entry => entry.auditedBy .publicQueryClientV1 ∧
    (rateGate digests gateway).window entry.1 = w ∧
      (rateGate digests gateway).client entry.1 = c).length =
        if gateway.rateLimit < ((rateGate digests gateway).ofClient w c
          ((rateGate digests gateway).first w run)).length then 1 else 0

section Fair

variable {digests gateway} {entries : List Entry} {run : List GateRequest}

theorem verdictOf_allowed_iff {blocked : Option (RateInput × RateDecision)} :
    verdictOf blocked = .allowed ↔ blocked = none := by
  cases blocked with
  | none => simp [verdictOf]
  | some decided =>
      obtain ⟨input, decision⟩ := decided
      cases hoperation : input.operation <;> simp [verdictOf, hoperation]

theorem auditedBy_global_iff (entry : Entry) :
    entry.auditedBy .publicQueryGlobalV1 = true ↔ verdictOf entry.2 = .globalBlocked true := by
  obtain ⟨request, none | ⟨input, decision⟩⟩ := entry
  · simp [Entry.auditedBy, verdictOf]
  · cases hoperation : input.operation <;> by_cases haudit : decision.shouldAudit = some false <;>
      simp [Entry.auditedBy, verdictOf, Entry.audit, hoperation, haudit]

theorem auditedBy_client_iff (entry : Entry) :
    entry.auditedBy .publicQueryClientV1 = true ↔ verdictOf entry.2 = .clientBlocked true := by
  obtain ⟨request, none | ⟨input, decision⟩⟩ := entry
  · simp [Entry.auditedBy, verdictOf]
  · cases hoperation : input.operation <;> by_cases haudit : decision.shouldAudit = some false <;>
      simp [Entry.auditedBy, verdictOf, Entry.audit, hoperation, haudit]

/-- The entries show the verdicts of the gate. -/
def Shows (digests : Digests) (gateway : Gateway) (entries : List Entry)
    (run : List GateRequest) : Prop :=
  entries.map (fun entry => (entry.1, verdictOf entry.2)) = (rateGate digests gateway).judged run

theorem Shows.length_filter (h : Shows digests gateway entries run)
    {p : Entry → Prop} [DecidablePred p] {q : GateRequest × Verdict → Prop} [DecidablePred q]
    (hpq : ∀ entry, p entry ↔ q (entry.1, verdictOf entry.2)) :
    (entries.filter fun entry => p entry).length =
      (((rateGate digests gateway).judged run).filter fun entry => q entry).length := by
  rw [← h, List.filter_map, List.length_map]
  refine congrArg List.length (List.filter_congr fun entry _ => ?_)
  exact decide_eq_decide.mpr (hpq entry)

theorem Shows.decisionsOf (h : Shows digests gateway entries run) (b : JsString) :
    decisionsOf digests gateway b entries = (rateGate digests gateway).decisionsOf b run := by
  rw [Gate.decisionsOf, ← h, List.filter_map, List.map_map]
  refine List.map_congr_left fun entry _ => Prod.ext rfl ?_
  exact decide_eq_decide.mpr verdictOf_allowed_iff.symm

theorem Shows.removes_iff (h : Shows digests gateway entries run) {b : JsString}
    {kept : List GateRequest} : Removes (BlockedOther digests gateway b) Prod.fst entries kept ↔
      Removes ((rateGate digests gateway).Removable b) Prod.fst
        ((rateGate digests gateway).judged run) kept := by
  have hsame : (rateGate digests gateway).Removable b ∘
      (fun entry : Entry => (entry.1, verdictOf entry.2)) = BlockedOther digests gateway b := by
    funext entry
    exact propext (and_congr (not_congr verdictOf_allowed_iff) Iff.rfl)
  rw [← h, removes_map, hsame]
  rfl

/-- A store that counts gives a fair gate. -/
theorem Counts.fair {repository : GateRequest → Repository σ} {audits : σ → List AuditInput}
    {Admits : List RateInput → RateInput → Prop} {Holds : List RateInput → σ → Prop}
    {initial : σ}
    (hcounts : ∀ request, Counts digests gateway (repository request) audits Admits Holds)
    (hholds : Holds [] initial) (hnew : audits initial = [])
    (hadmits : ∀ kept, List.Sublist kept run →
      @AdmitsRun digests gateway Admits kept) :
    FairGate digests gateway (fun requests =>
      let out := PublicGateway.serveFrom digests gateway repository requests initial
      (out.1, audits out.2)) run := by
  have hserve : ∀ kept, List.Sublist kept run → ∀ out,
      PublicGateway.serveFrom digests gateway repository kept initial = out →
        Shows digests gateway out.1 kept ∧ audits out.2 = out.1.filterMap Entry.audit := by
    rintro kept hkept ⟨entries, final⟩ hout
    have hrun := @Counts.serveFrom _ _ _ _ _ _ [] _ _ _ hcounts hholds (hadmits kept hkept) _ _ hout
    rwa [hnew] at hrun
  obtain ⟨hshows, hrecorded⟩ := hserve run (List.Sublist.refl run) _ rfl
  constructor
  case unaffected =>
    intro b
    rw [← unaffected_iff]
    refine forall_congr' fun kept => ?_
    dsimp only
    rw [hshows.removes_iff]
    refine imp_congr_right fun hkept => ?_
    have hsublist := hkept.sublist
    rw [map_fst_judged] at hsublist
    rw [(hserve kept hsublist _ rfl).1.decisionsOf, hshows.decisionsOf]
  case ofClient =>
    intro w c
    refine le_of_eq_of_le (hshows.length_filter fun entry => ?_) (length_allowedOf_le w c run)
    exact and_congr verdictOf_allowed_iff.symm Iff.rfl
  case ofAll =>
    intro w
    refine le_of_eq_of_le (hshows.length_filter fun entry => ?_) (length_allowedIn_le w run)
    exact and_congr verdictOf_allowed_iff.symm Iff.rfl
  case recorded => exact hrecorded
  case auditedAll =>
    intro w
    refine (hshows.length_filter fun entry => ?_).trans (length_notedIn w run)
    exact and_congr (auditedBy_global_iff entry) Iff.rfl
  case auditedOf =>
    intro w c
    refine (hshows.length_filter fun entry => ?_).trans (length_notedOf w c run)
    exact and_congr (auditedBy_client_iff entry) Iff.rfl

end Fair

end PublicGateway
