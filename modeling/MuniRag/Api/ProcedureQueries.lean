import MuniRag.Lib.JsonParse
import MuniRag.Lib.ReservationLaw

/-!
# Procedure queries

`executeProcedureQuery` of `api/v1/handler.ts` on `PostgresProcedureQueryPersistence`: the claim of
the idempotency key, the compiler and the completion are one transaction, in the protocol of
reserved keys.  The compiler, the mappings to the three kinds of output and the schema validators
are parameters; whatever throws in the transaction is a failure of it.
-/

namespace ProcedureQuery

open Runs Reservations

/-- The primary key; the operation is always `procedure_query_v1`. -/
structure Key where
  tenantId : JsString
  principalId : JsString
  idempotencyKeySha256 : JsString
  deriving DecidableEq, Repr

inductive RequestedOutput
  | evidenceBundle
  | procedureWorkflow
  | procedureAssessment
  deriving DecidableEq, Repr

/-- What `executeProcedureQuery` is given: the principal, the request and the two digests. -/
structure Request where
  tenantId : JsString
  principalId : JsString
  credentialId : JsString
  requestTenantId : JsString
  requestId : JsString
  requestedOutput : RequestedOutput
  idempotencyKeySha256 : JsString
  requestSha256 : JsString
  deriving DecidableEq, Repr

/-- The columns of a completed row of `integration.procedure_query_idempotency`; the checks of the
table tie them to the state. -/
structure Stored where
  statusCode : Nat
  responseBody : JsString
  auditId : JsString
  deriving DecidableEq, Repr

/-- A corrupt stored response is answered with an internal error. -/
inductive Refusal
  | corrupt
  deriving DecidableEq, Repr

/-- What the request's work goes through: the answer of the compiler, with a new audit id and the
time of the response. -/
structure Compiled (γ : Type) where
  compilation : γ
  auditId : JsString
  createdAt : JsString

variable {ν γ ι : Type}

structure Dependencies (ν γ : Type) where
  reader : Json.NumberReader ν
  /-- `String(value ?? "")`. -/
  text : Option (Json.Value ν) → JsString
  evidenceBundle : Json.Value ν → Bool
  workflow : Json.Value ν → Bool
  assessment : Json.Value ν → Bool
  mapEvidenceBundleV1 : Request → Compiled γ → Json.Value ν
  mapProcedureWorkflowV1 : Request → Compiled γ → Json.Value ν
  mapProcedureAssessmentV1 : Request → Compiled γ → Json.Value ν

variable (dependencies : Dependencies ν γ)

/-- `interval '24 hours'`. -/
def day : Int := 24 * 60 * 60 * 1000

def Request.key (request : Request) : Key where
  tenantId := request.tenantId
  principalId := request.principalId
  idempotencyKeySha256 := request.idempotencyKeySha256

/-- The validator of the requested output. -/
def Dependencies.accepts : RequestedOutput → Json.Value ν → Bool
  | .evidenceBundle => dependencies.evidenceBundle
  | .procedureWorkflow => dependencies.workflow
  | .procedureAssessment => dependencies.assessment

def tenantIdsEqual (actual expected : JsString) : Bool :=
  (uuidValue actual).isSome && (uuidValue expected).isSome && uuidValue actual == uuidValue expected

/-- Whether `typeof` calls a value of a JSON text an object, and it is not `null`. -/
def isObject : Json.Value ν → Bool
  | .object _ | .array _ => true
  | _ => false

def validStoredReplay (request : Request) (stored : Stored) : Bool :=
  stored.statusCode == 200 && (uuidValue stored.auditId).isSome &&
    match Json.parse dependencies.reader stored.responseBody with
    | none => false
    | some parsed =>
        let provenance := parsed.member? (js "provenance")
        dependencies.accepts request.requestedOutput parsed && isObject parsed &&
          tenantIdsEqual (dependencies.text (parsed.member? (js "tenant_id"))) request.tenantId &&
          tenantIdsEqual (dependencies.text (parsed.member? (js "tenant_id")))
            request.requestTenantId &&
          tenantIdsEqual (dependencies.text (parsed.member? (js "request_id")))
            request.requestId &&
          tenantIdsEqual
            (dependencies.text (provenance.bind (Json.Value.member? (js "credential_id"))))
            request.credentialId &&
          tenantIdsEqual
            (dependencies.text (provenance.bind (Json.Value.member? (js "audit_id"))))
            stored.auditId

/-- The mapped response; `none` where it throws. -/
def mapped (request : Request) (compiled : Compiled γ) : Option (Json.Value ν) :=
  match request.requestedOutput with
  | .evidenceBundle =>
      some (dependencies.mapEvidenceBundleV1 request compiled) |>.filter
        dependencies.evidenceBundle
  | .procedureWorkflow =>
      some (dependencies.mapProcedureWorkflowV1 request compiled) |>.filter dependencies.workflow
  | .procedureAssessment =>
      if dependencies.workflow (dependencies.mapProcedureWorkflowV1 request compiled) then
        some (dependencies.mapProcedureAssessmentV1 request compiled) |>.filter
          dependencies.assessment
      else none

/-- What is stored of a mapped response. -/
def stored (request : Request) (compiled : Compiled γ) : Option Stored :=
  (mapped dependencies request compiled).map fun value =>
    { statusCode := 200
      responseBody := Json.stringify dependencies.reader.toNumberText value
      auditId := compiled.auditId }

def executeProcedureQuery (requests : ι → Request) :
    Handler ι Key JsString Stored Refusal (Option Stored) (Compiled γ) Unit where
  key i := (requests i).key
  digest i := (requests i).requestSha256
  lifetime := day
  reject i _ stored :=
    if validStoredReplay dependencies (requests i) stored then none else some .corrupt
  start := none
  work i compiled data
    | none => (stored dependencies (requests i) compiled).map fun stored => (some stored, data)
    | some _ => none
  outcome work := work.map .ok
  commit _ data := data
  abort _ data := data

/-! ## The responses -/

/-- The response meets the contract of the requested output. -/
def Stored.Meets (output : RequestedOutput) (stored : Stored) : Prop :=
  stored.statusCode = 200 ∧ ∃ value, Json.parse dependencies.reader stored.responseBody =
    some value ∧ dependencies.accepts output value = true

theorem accepts_of_mapped {request : Request} {compiled : Compiled γ} {value : Json.Value ν}
    (h : mapped dependencies request compiled = some value) :
    dependencies.accepts request.requestedOutput value = true := by
  unfold mapped at h
  cases houtput : request.requestedOutput with
  | evidenceBundle =>
      rw [houtput] at h
      exact (Option.filter_eq_some_iff.mp h).2
  | procedureWorkflow =>
      rw [houtput] at h
      exact (Option.filter_eq_some_iff.mp h).2
  | procedureAssessment =>
      simp only [houtput] at h
      split_ifs at h
      exact (Option.filter_eq_some_iff.mp h).2

theorem meets_of_stored {request : Request} {compiled : Compiled γ} {result : Stored}
    (h : stored dependencies request compiled = some result) :
    result.Meets dependencies request.requestedOutput := by
  obtain ⟨value, hvalue, rfl⟩ := Option.map_eq_some_iff.mp h
  exact ⟨rfl, value, Json.parse_stringify dependencies.reader value,
    accepts_of_mapped dependencies hvalue⟩

theorem meets_of_validStoredReplay {request : Request} {result : Stored}
    (h : validStoredReplay dependencies request result = true) :
    result.Meets dependencies request.requestedOutput := by
  unfold validStoredReplay at h
  cases hparse : Json.parse dependencies.reader result.responseBody with
  | none => simp [hparse] at h
  | some parsed =>
      simp only [hparse, Bool.and_eq_true, beq_iff_eq] at h
      exact ⟨h.1.1, parsed, hparse, h.2.1.1.1.1.1.1⟩

theorem carries (requests : ι → Request) :
    Carries (executeProcedureQuery dependencies requests)
      (fun i work => ∀ result, work = some result →
        result.Meets dependencies (requests i).requestedOutput)
      fun i result => result.Meets dependencies (requests i).requestedOutput where
  start i result hresult := by cases hresult
  work i compiled data work work' data' _ hwork := by
    cases work with
    | none =>
        obtain ⟨result, hresult, hpair⟩ := Option.map_eq_some_iff.mp hwork
        cases hpair
        rintro result' hresult'
        cases hresult'
        exact meets_of_stored dependencies hresult
    | some result => cases hwork
  outcome i work result hwork houtcome := by
    obtain ⟨result', rfl, hresult⟩ := Option.map_eq_some_iff.mp houtcome
    cases hresult
    exact hwork _ rfl

/-! ## The runs -/

section Runs

variable [DecidableEq ι] (requests : ι → Request)

/-- The keys are lawful, and a response that a request is given meets its contract. -/
structure OncePerDay (log : List (Entry ι Key Stored))
    (world : World ι Key JsString Stored Refusal (Option Stored) Unit) : Prop where
  lawful : Lawful (executeProcedureQuery dependencies requests) log world
  contract : ∀ i result, world.phases i = .answered (.success result) →
    result.Meets dependencies (requests i).requestedOutput

/-- **One key, one response.**  In every run of requests, in any interleaving and with any
transaction lost or unheard: a key is not executed again until the execution before has run out,
unless its response was deleted as corrupt in between; a request that succeeds is given the
response of an execution of the same request, which meets the contract of the output it asked for;
no unfinished row is ever left, and nobody is told that a request is in progress. -/
theorem once_per_day (now : Int) (events : List (Event ι Key (Compiled γ))) :
    OncePerDay dependencies requests
      (outputs (World.step (executeProcedureQuery dependencies requests))
        (World.entry (executeProcedureQuery dependencies requests)) (World.initial now ()) events)
      (run (World.step (executeProcedureQuery dependencies requests)) (World.initial now ())
        events) where
  lawful := lawful_run _ now () events
  contract i result := by
    refine (carries dependencies requests).success (fun i compiled result hreject => ?_) now ()
      events i result
    refine meets_of_validStoredReplay dependencies ?_
    by_contra hinvalid
    simp [executeProcedureQuery, hinvalid] at hreject

end Runs

end ProcedureQuery
