import MuniRag.Text
import MuniRag.Lib.JsMap
import MuniRag.Lib.Runs
import Mathlib.Logic.Function.Basic

/-!
# Idempotency claims of evidence bundles

`executeBundleRequest` of `searchEvidenceHandler.ts` on the records of
`InMemorySearchEvidenceRepository`.  The claim, the work that ends in the
completion, and the release are transactions of their own, with the call of the
embedding provider after the first; each of them is one step, and any number of
requests run interleaved.

A record says what was claimed, not who has claimed it: its state and the digest
of the request are all that a completion or a release looks at.
-/

namespace SearchEvidence

open Runs

/-! ## The records -/

/-- `SearchEvidenceIdempotencyScope`; the operation is always the same. -/
structure Scope where
  tenantId : JsString
  principalId : JsString
  idempotencyKeySha256 : JsString
  requestSha256 : JsString
  now : Time
  expiresAt : Time
  deriving DecidableEq, Repr

inductive RecordState
  | processing
  | completed
  deriving DecidableEq, Repr

/-- `InMemorySearchEvidenceIdempotency`. -/
structure IdempotencyRecord where
  scope : Scope
  state : RecordState
  responseStatus : Option Nat
  responseBody : Option JsString
  responseSha256 : Option JsString
  auditId : Option JsString
  completedAt : Option Time
  deriving DecidableEq, Repr

abbrev Records := JsMap JsString IdempotencyRecord

def Scope.replayKey (scope : Scope) : JsString :=
  scope.tenantId ++ [0x3a] ++ scope.principalId ++ [0x3a] ++ js "evidence_bundle_create_v1" ++
    [0x3a] ++ scope.idempotencyKeySha256

/-- The record that a new claim sets. -/
def Scope.claimed (scope : Scope) : IdempotencyRecord where
  scope := scope
  state := .processing
  responseStatus := none
  responseBody := none
  responseSha256 := none
  auditId := none
  completedAt := none

/-- `SearchEvidenceIdempotencyClaim`. -/
inductive Claim
  | new
  | conflict
  | processing
  | replay (responseBody responseSha256 auditId : Option JsString)
  deriving DecidableEq, Repr

def claimIdempotency (records : Records) (input : Scope) : Records × Claim :=
  match JsMap.get records input.replayKey with
  | none => (JsMap.set records input.replayKey input.claimed, .new)
  | some existing =>
      if existing.scope.expiresAt ≤ input.now then
        (JsMap.set records input.replayKey input.claimed, .new)
      else if existing.scope.requestSha256 ≠ input.requestSha256 then (records, .conflict)
      else if existing.state = .processing then (records, .processing)
      else (records, .replay existing.responseBody existing.responseSha256 existing.auditId)

/-- What a completion adds to the scope. -/
structure Completion where
  responseBody : JsString
  auditId : JsString
  completedAt : Time
  deriving DecidableEq, Repr

/-- The record that a completion and a release look for. -/
def isClaimOf (input : Scope) (record : IdempotencyRecord) : Bool :=
  record.state = .processing && record.scope.requestSha256 = input.requestSha256

/-- `completeIdempotency`; `none` where it throws. -/
def completeIdempotency (sha256 : JsString → JsString) (records : Records) (input : Scope)
    (completion : Completion) : Option Records :=
  match (JsMap.get records input.replayKey).filter (isClaimOf input) with
  | none => none
  | some existing => some (JsMap.set records input.replayKey { existing with
      state := .completed
      responseStatus := some 200
      responseBody := some completion.responseBody
      responseSha256 := some (sha256 completion.responseBody)
      auditId := some completion.auditId
      completedAt := some completion.completedAt })

def releaseIdempotency (records : Records) (input : Scope) : Records :=
  if (JsMap.get records input.replayKey).any (isClaimOf input) then
    JsMap.delete records input.replayKey
  else records

def invalidateCompletedIdempotency (records : Records) (input : Scope) : Records :=
  JsMap.delete records input.replayKey

/-! ## The requests -/

/-- One call of `executeBundleRequest`: the principal, the key, the canonical
text of the request, and what `dependencies.now` returns first. -/
structure BundleRequest where
  tenantId : JsString
  principalId : JsString
  idempotencyKey : JsString
  canonicalJson : JsString
  now : Time
  deriving DecidableEq, Repr

/-- What the handler gets from its host; `validStored` is the verdict of
`validStoredBundle` on a stored response. -/
structure Service where
  sha256 : JsString → JsString
  idempotencyTtlSeconds : Int
  validStored : BundleRequest → Option JsString → Option JsString → Option JsString → Bool

variable (service : Service)

def BundleRequest.scope (request : BundleRequest) : Scope where
  tenantId := request.tenantId
  principalId := request.principalId
  idempotencyKeySha256 := service.sha256 request.idempotencyKey
  requestSha256 := service.sha256 request.canonicalJson
  now := request.now
  expiresAt := request.now + service.idempotencyTtlSeconds * 1000

inductive Failure
  | api (statusCode : Nat) (code : String)
  | repository (code : String)
  | other (message : String)
  deriving DecidableEq, Repr

inductive Stage
  | start
  | preparing
  | executing
  | releasing (failure : Failure)
  | done (body : Option JsString)
  | failed (failure : Failure)
  deriving DecidableEq, Repr

/-- The request has claimed its key and has not ended. -/
def Stage.live : Stage → Bool
  | .preparing | .executing | .releasing _ => true
  | _ => false

/-- The records and the requests.  `claimant` is who has last claimed a key; the
code keeps no such thing. -/
structure World (ι : Type) where
  records : Records
  stages : ι → Stage
  claimant : JsString → Option ι

/-- A request runs its claim, the provider answers or fails, the work fails or
reaches the completion, or the release is run or lost. -/
inductive Event (ι : Type)
  | claim (i : ι)
  | prepare (i : ι) (failure : Option Failure)
  | execute (i : ι) (result : Except Failure Completion)
  | release (i : ι) (lost : Bool)

variable {ι : Type} [DecidableEq ι]

def World.moveTo (world : World ι) (i : ι) (stage : Stage) : World ι :=
  { world with stages := Function.update world.stages i stage }

/-- The first transaction. -/
def World.claim (world : World ι) (request : BundleRequest) (i : ι) : World ι :=
  let scope := request.scope service
  match claimIdempotency world.records scope with
  | (records, .new) =>
      { records
        stages := Function.update world.stages i .preparing
        claimant := Function.update world.claimant scope.replayKey (some i) }
  | (_, .conflict) => world.moveTo i (.failed (.api 409 "idempotency_conflict"))
  | (_, .processing) => world.moveTo i (.failed (.api 409 "request_in_progress"))
  | (_, .replay responseBody responseSha256 auditId) =>
      if service.validStored request responseBody responseSha256 auditId = true then
        world.moveTo i (.done responseBody)
      else
        { world with records := invalidateCompletedIdempotency world.records scope }.moveTo i
          (.failed (.api 500 "replay_invalid"))

/-- The second transaction. -/
def World.execute (world : World ι) (request : BundleRequest) (i : ι) :
    Except Failure Completion → World ι
  | .error failure => world.moveTo i (.releasing failure)
  | .ok completion =>
      match completeIdempotency service.sha256 world.records (request.scope service) completion with
      | none => world.moveTo i (.releasing (.repository "idempotency_completion_mismatch"))
      | some records => { world with records }.moveTo i (.done (some completion.responseBody))

def World.release (world : World ι) (request : BundleRequest) (i : ι) (failure : Failure)
    (lost : Bool) : World ι :=
  if lost = true then world.moveTo i (.failed failure)
  else { world with records := releaseIdempotency world.records (request.scope service) }.moveTo i
    (.failed failure)

def World.step (requests : ι → BundleRequest) (world : World ι) : Event ι → World ι
  | .claim i =>
      match world.stages i with
      | .start => world.claim service (requests i) i
      | _ => world
  | .prepare i failure =>
      match world.stages i, failure with
      | .preparing, none => world.moveTo i .executing
      | .preparing, some failure => world.moveTo i (.releasing failure)
      | _, _ => world
  | .execute i result =>
      match world.stages i with
      | .executing => world.execute service (requests i) i result
      | _ => world
  | .release i lost =>
      match world.stages i with
      | .releasing failure => world.release service (requests i) i failure lost
      | _ => world

/-- Before any request has begun, with whatever is stored. -/
def World.opening (ι : Type) (records : Records) : World ι where
  records := records
  stages := fun _ => .start
  claimant := fun _ => none

end SearchEvidence
