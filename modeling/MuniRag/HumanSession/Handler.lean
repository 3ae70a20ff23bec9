import MuniRag.HumanSession.Constraints
import MuniRag.Lib.Runs

/-!
# The requests of the browsers

`handleCallback`, `handleSession`, `handleRotate` and `handleLogout` as they
drive the repository: each request is a sequence of calls, and between two calls
of one request any other request may make its own.  A request reads the clock of
its server once and carries what it was told; whatever else decides a step (the
clock of the database, the answer of the provider, fresh tokens, a failing audit)
is in the `Environment` of that step.

A request that a check stops is `finished`.  One that an exception outside the
calls stops is simply not scheduled again.

The log beside the tables tells what the calls did, newest first.
-/

namespace HumanSession

open Results

/-- What a browser presents with a callback, as digests, and the server's clock. -/
structure CallbackInput where
  stateSha256 : Bytes
  browserBindingSha256 : Bytes
  codeSha256 : Bytes
  now : Instant
  deriving DecidableEq, Repr

/-- The proofs of `requireBootstrapProof` and `requireMutationProof`: whether the
headers are right and, for the second, the digest of the CSRF token. -/
inductive RequestProof
  | bootstrap (headers : Bool)
  | mutation (origin : Bool) (csrfSha256 : Bytes)
  deriving DecidableEq, Repr

def RequestProof.holds (proof : RequestProof) (session : SessionRow) : Bool :=
  match proof with
  | .bootstrap headers => headers
  | .mutation origin csrfSha256 => origin && csrfSha256 == session.csrfSha256

/-- What a browser presents with its session cookie, and the server's clock. -/
structure SessionInput where
  sessionTokenSha256 : Bytes
  now : Instant
  proof : RequestProof
  deriving DecidableEq, Repr

inductive CallbackPhase
  | arrived
  | consumed
  | claimed
  | opened (sessionTokenSha256 : Bytes)
  | finished
  deriving DecidableEq, Repr

inductive SessionPhase
  | arrived
  | authenticated (session : SessionRow)
  | renewed (sessionTokenSha256 : Bytes)
  | finished
  deriving DecidableEq, Repr

/-- A request under way.  `handleSession` and `handleRotate` make the same calls
and differ in the proof they ask for. -/
inductive Request
  | callback (input : CallbackInput) (phase : CallbackPhase)
  | renew (input : SessionInput) (phase : SessionPhase)
  | logout (input : SessionInput) (phase : SessionPhase)
  deriving DecidableEq, Repr

/-- The membership that the exchange and `resolve_human_membership` lead to. -/
structure Person where
  tenantId : Uuid
  principalId : Uuid
  humanSubjectId : Uuid
  deriving DecidableEq, Repr

/-- `HumanSessionBffDependencies`: the provider, the lifetimes, and whether the
roles of a session let it pass `validateSessionRecord`. -/
structure Config where
  providerId : JsString
  authorizationCodeReplayTtl : Int
  sessionTtl : Int
  acceptsRoles : List String → Bool

structure Environment where
  clock : Instant
  directory : Directory
  person : Option Person
  sessionId : Uuid
  sessionTokenSha256 : Bytes
  csrfSha256 : Bytes
  auditFails : Bool

/-- What a login state is bound to. -/
structure Ticket where
  stateSha256 : Bytes
  browserBindingSha256 : Bytes
  providerId : JsString
  expiresAt : Instant
  deriving DecidableEq, Repr

def LoginTransaction.ticket (row : LoginTransaction) : Ticket where
  stateSha256 := row.stateSha256
  browserBindingSha256 := row.browserBindingSha256
  providerId := row.providerId
  expiresAt := row.expiresAt

/-- An entry of the log. -/
inductive Entry
  | created (ticket : Ticket)
  | consumed (ticket : Ticket) (now : Instant)
  | claim (clock : Instant) (providerId : JsString) (codeSha256 : Bytes) (expiresAt : Instant)
      (answer : Bool)
  | opened (stateSha256 : Bytes) (sessionId : Uuid)
  | authenticated (sessionTokenSha256 : Bytes)
  | rotated (sessionTokenSha256 : Bytes)
  | revoked (sessionTokenSha256 : Bytes)
  | loggedOut (sessionTokenSha256 : Bytes)
  deriving DecidableEq, Repr

/-- What one step of a request leaves. -/
structure Outcome where
  db : Database
  entries : List Entry
  request : Request

variable (config : Config) (host : Host) (environment : Environment) (db : Database)

/-- `revokeSession`, with an entry when a session was revoked. -/
def revokeSession (sessionTokenSha256 : Bytes) (now : Instant) :
    Database × List Entry × Option (SessionRow × List String) :=
  match db.revokeHumanSession environment.directory environment.clock sessionTokenSha256 now with
  | .ok (after, answer) =>
      (after, if ∃ row ∈ db.sessions, row.revocable environment.clock sessionTokenSha256 now then
        [.revoked sessionTokenSha256] else [], answer)
  | .error _ => (db, [], none)

/-- `safeAudit`, after which a session whose audit failed is revoked. -/
def auditOrRevoke (sessionTokenSha256 : Bytes) (now : Instant) (finished : Request) : Outcome :=
  if environment.auditFails then
    let (after, entries, _) := revokeSession environment db sessionTokenSha256 now
    { db := after, entries, request := finished }
  else { db, entries := [], request := finished }

/-- The next call of `handleCallback`. -/
def handleCallback (input : CallbackInput) : CallbackPhase → Outcome
  | .arrived =>
      let presented : ConsumeInput := {
        stateSha256 := input.stateSha256, browserBindingSha256 := input.browserBindingSha256
        providerId := config.providerId, now := input.now }
      match db.consumeHumanLoginTransaction host environment.clock presented with
      | .ok (after, rows) => {
          db := after, entries := rows.map fun row => .consumed row.ticket input.now
          request := .callback input (if rows.length = 1 then .consumed else .finished) }
      | .error _ => { db, entries := [], request := .callback input .finished }
  | .consumed =>
      let expiresAt := input.now + config.authorizationCodeReplayTtl
      let (after, answer) := db.claimHumanAuthorizationCode environment.clock config.providerId
        input.codeSha256 expiresAt
      { db := after
        entries := [.claim environment.clock config.providerId input.codeSha256 expiresAt answer]
        request := .callback input (if answer then .claimed else .finished) }
  | .claimed =>
      match environment.person with
      | some person =>
          let row : SessionRow := {
            id := environment.sessionId, tenantId := person.tenantId
            principalId := person.principalId, humanSubjectId := person.humanSubjectId
            sessionTokenSha256 := environment.sessionTokenSha256
            csrfSha256 := environment.csrfSha256, issuedAt := input.now
            expiresAt := input.now + config.sessionTtl, revokedAt := none
            replacedBySessionId := none, generation := 1 }
          match db.createHumanSession environment.directory environment.clock row with
          | .ok (after, true) => {
              db := after, entries := [.opened input.stateSha256 environment.sessionId]
              request := .callback input (.opened environment.sessionTokenSha256) }
          | _ => { db, entries := [], request := .callback input .finished }
      | none => { db, entries := [], request := .callback input .finished }
  | .opened token =>
      auditOrRevoke environment db token input.now (.callback input .finished)
  | .finished => { db, entries := [], request := .callback input .finished }

/-- `authenticateRequest` and the proof that follows it. -/
def authenticateRequest (input : SessionInput) (resume : SessionPhase → Request) : Outcome :=
  match db.authenticateHumanSession environment.directory environment.clock
      input.sessionTokenSha256 input.now with
  | some (session, roles) => {
      db, entries := [.authenticated input.sessionTokenSha256]
      request := resume (if config.acceptsRoles roles && input.proof.holds session then
        .authenticated session else .finished) }
  | none => { db, entries := [], request := resume .finished }

/-- The next call of `handleSession` or `handleRotate`. -/
def handleRenewal (input : SessionInput) : SessionPhase → Outcome
  | .arrived => authenticateRequest config environment db input (.renew input)
  | .authenticated session =>
      let rotation : RotateInput := {
        currentTokenSha256 := input.sessionTokenSha256
        replacementSessionId := environment.sessionId
        replacementTokenSha256 := environment.sessionTokenSha256
        replacementCsrfSha256 := environment.csrfSha256, issuedAt := input.now
        expiresAt := input.now + config.sessionTtl, generation := session.generation + 1 }
      match db.rotateHumanSession environment.clock rotation with
      | .ok (after, true) => {
          db := after, entries := [.rotated input.sessionTokenSha256]
          request := .renew input (.renewed environment.sessionTokenSha256) }
      | _ => { db, entries := [], request := .renew input .finished }
  | .renewed token => auditOrRevoke environment db token input.now (.renew input .finished)
  | .finished => { db, entries := [], request := .renew input .finished }

/-- The next call of `handleLogout`, which answers success when a record came back
and the audit went through. -/
def handleLogout (input : SessionInput) : SessionPhase → Outcome
  | .arrived => authenticateRequest config environment db input (.logout input)
  | .authenticated _ =>
      let (after, entries, answer) :=
        revokeSession environment db input.sessionTokenSha256 input.now
      { db := after
        entries := if answer ≠ none ∧ environment.auditFails = false then
          .loggedOut input.sessionTokenSha256 :: entries else entries
        request := .logout input .finished }
  | .renewed _ | .finished => { db, entries := [], request := .logout input .finished }

def Request.act : Request → Outcome
  | .callback input phase => handleCallback config host environment db input phase
  | .renew input phase => handleRenewal config environment db input phase
  | .logout input phase => handleLogout config environment db input phase

/-! ## The system -/

structure System where
  db : Database
  requests : List Request
  log : List Entry

def System.opening : System where
  db := .opening
  requests := []
  log := []

inductive Event
  | login (clock : Instant) (id : Uuid) (input : LoginInput)
  | callback (input : CallbackInput)
  | renew (input : SessionInput)
  | logout (input : SessionInput)
  | advance (index : Nat) (environment : Environment)

/-- One call of a request, a login, or the arrival of a request. -/
def System.step (system : System) : Event → System
  | .login clock id input =>
      match system.db.createHumanLoginTransaction host clock id input with
      | .ok (after, _) => {
          db := after, requests := system.requests
          log := .created {
            stateSha256 := input.stateSha256, browserBindingSha256 := input.browserBindingSha256
            providerId := input.providerId, expiresAt := input.expiresAt } :: system.log }
      | .error _ => system
  | .callback input => { system with requests := system.requests ++ [.callback input .arrived] }
  | .renew input => { system with requests := system.requests ++ [.renew input .arrived] }
  | .logout input => { system with requests := system.requests ++ [.logout input .arrived] }
  | .advance index environment =>
      match system.requests[index]? with
      | some request =>
          let outcome := request.act config host environment system.db
          { db := outcome.db, requests := system.requests.set index outcome.request
            log := outcome.entries ++ system.log }
      | none => system

end HumanSession
