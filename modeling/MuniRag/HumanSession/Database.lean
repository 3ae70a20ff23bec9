import Mathlib.Data.String.Basic
import MuniRag.Lib.Results
import MuniRag.Lib.Table
import MuniRag.Text

/-!
# The human-session tables and functions

The tables of `017_human_session_bff.sql` with the functions that write them.
Each function is one statement of the repository: `clock` is its
`statement_timestamp()`, everything else is passed in, instants of the
application included.  A call that raises or violates a constraint fails and
changes nothing.

`identity` lends the functions its subjects, principals, tenants and memberships.
The rows a session refers to are never missing, since the sessions go with them
(`ON DELETE CASCADE`), so the foreign keys are not among the constraints here.
-/

namespace HumanSession

open Results

/-- An instant of the database, in microseconds since the epoch. -/
abbrev Instant := Int

def minutes (n : Int) : Int := n * 60000000

def hours (n : Int) : Int := n * 3600000000

/-- A `BYTEA` value. -/
abbrev Bytes := List UInt8

/-- A raised exception or a violated constraint. -/
inductive Failure
  | raised (message : String)
  | violated (name : String)
  deriving DecidableEq, Repr

/-- What PostgreSQL computes on texts. -/
structure Host where
  charLength : JsString → Nat
  hasControl : JsString → Bool

/-- The texts of `^[a-z][a-z0-9._-]{2,63}$`. -/
def isProviderId (id : JsString) : Bool :=
  decide (3 ≤ id.length ∧ id.length ≤ 64) && id.head?.any isLowerLetter &&
    id.all fun u => isLowerLetter u || isDecimalDigit u || u == 0x2e || u == 0x5f || u == 0x2d

/-! ## Login transactions -/

/-- A row of `identity.human_login_transactions`. -/
structure LoginTransaction where
  id : Uuid
  stateSha256 : Bytes
  browserBindingSha256 : Bytes
  providerId : JsString
  protectedChallenge : JsString
  returnPath : JsString
  createdAt : Instant
  expiresAt : Instant
  consumedAt : Option Instant
  deriving DecidableEq, Repr

/-- `LoginTransactionInput`. -/
structure LoginInput where
  stateSha256 : Bytes
  browserBindingSha256 : Bytes
  providerId : JsString
  protectedChallenge : JsString
  returnPath : JsString
  expiresAt : Instant
  deriving DecidableEq, Repr

variable (host : Host)

/-- `^/[^?#[:cntrl:]]{0,199}$`, and no second slash at the start. -/
def Host.isReturnPath (path : JsString) : Prop :=
  path.head? = some 0x2f ∧ (path.drop 1).head? ≠ some 0x2f ∧ host.charLength path ≤ 200 ∧
    (∀ u ∈ path, u ≠ 0x3f ∧ u ≠ 0x23) ∧ host.hasControl path = false

instance (path : JsString) : Decidable (host.isReturnPath path) := by
  unfold Host.isReturnPath
  haveI : Decidable (∀ u ∈ path, u ≠ 0x3f ∧ u ≠ 0x23) := List.decidableBAll _ _
  infer_instance

/-- The checks that the function and the columns make of the same values. -/
def Host.isLogin (stateSha256 browserBindingSha256 : Bytes)
    (providerId protectedChallenge returnPath : JsString) : Prop :=
  stateSha256.length = 32 ∧ browserBindingSha256.length = 32 ∧ isProviderId providerId = true ∧
    40 ≤ utf8Length protectedChallenge ∧ utf8Length protectedChallenge ≤ 8192 ∧
    host.hasControl protectedChallenge = false ∧ host.isReturnPath returnPath

instance (state binding : Bytes) (provider challenge path : JsString) :
    Decidable (host.isLogin state binding provider challenge path) := by
  unfold Host.isLogin
  infer_instance

/-- The `CHECK` constraints of a login transaction. -/
def LoginTransaction.meetsChecks (row : LoginTransaction) : Prop :=
  host.isLogin row.stateSha256 row.browserBindingSha256 row.providerId row.protectedChallenge
      row.returnPath ∧
    row.createdAt < row.expiresAt ∧ ∀ at' ∈ row.consumedAt, row.createdAt ≤ at'

instance (row : LoginTransaction) : Decidable (row.meetsChecks host) := by
  unfold LoginTransaction.meetsChecks
  infer_instance

/-- What a request presents to consume a login transaction. -/
structure ConsumeInput where
  stateSha256 : Bytes
  browserBindingSha256 : Bytes
  providerId : JsString
  now : Instant
  deriving DecidableEq, Repr

/-- Within five minutes of the clock, on either side. -/
def nearClock (clock instant : Instant) : Prop :=
  clock - minutes 5 ≤ instant ∧ instant ≤ clock + minutes 5

instance (clock instant : Instant) : Decidable (nearClock clock instant) := by
  unfold nearClock
  infer_instance

/-- The `WHERE` clause of `consume_human_login_transaction`. -/
def LoginTransaction.consumable (input : ConsumeInput) (clock : Instant)
    (row : LoginTransaction) : Prop :=
  row.stateSha256 = input.stateSha256 ∧ row.browserBindingSha256 = input.browserBindingSha256 ∧
    row.providerId = input.providerId ∧ row.consumedAt = none ∧ input.now < row.expiresAt ∧
    nearClock clock input.now ∧ input.stateSha256.length = 32 ∧
    input.browserBindingSha256.length = 32

instance (input : ConsumeInput) (clock : Instant) :
    DecidablePred (LoginTransaction.consumable input clock) := by
  unfold LoginTransaction.consumable
  infer_instance

/-- The row once it is consumed. -/
def LoginTransaction.consume (input : ConsumeInput) (row : LoginTransaction) : LoginTransaction :=
  { row with consumedAt := some input.now }

/-- A row of `identity.human_authorization_code_claims`. -/
structure CodeClaim where
  providerId : JsString
  codeSha256 : Bytes
  claimedAt : Instant
  expiresAt : Instant
  deriving DecidableEq, Repr

/-! ## Sessions -/

/-- A row of `identity.human_sessions`. -/
structure SessionRow where
  id : Uuid
  tenantId : Uuid
  principalId : Uuid
  humanSubjectId : Uuid
  sessionTokenSha256 : Bytes
  csrfSha256 : Bytes
  issuedAt : Instant
  expiresAt : Instant
  revokedAt : Option Instant
  replacedBySessionId : Option Uuid
  generation : Int
  deriving DecidableEq, Repr

/-- The `CHECK` constraints of a session. -/
def SessionRow.meetsChecks (row : SessionRow) : Prop :=
  row.sessionTokenSha256.length = 32 ∧ row.csrfSha256.length = 32 ∧
    1 ≤ row.generation ∧ row.generation ≤ 1000000 ∧
    row.issuedAt < row.expiresAt ∧ row.expiresAt ≤ row.issuedAt + hours 8 ∧
    (∀ at' ∈ row.revokedAt, row.issuedAt ≤ at') ∧
    (row.revokedAt = none → row.replacedBySessionId = none)

instance (row : SessionRow) : Decidable row.meetsChecks := by
  unfold SessionRow.meetsChecks
  infer_instance

structure Membership where
  tenantId : Uuid
  principalId : Uuid
  role : String
  deriving DecidableEq, Repr

/-- What the functions read of the other tables of `identity`: the subjects,
principals (of kind `user`) and tenants that are active, and the memberships. -/
structure Directory where
  activeSubjects : List (Uuid × Uuid × Uuid)
  activeUsers : List (Uuid × Uuid)
  activeTenants : List Uuid
  memberships : List Membership
  deriving Repr

/-- `array_agg(membership.role ORDER BY membership.role)` over the roles that a
person may have. -/
def Directory.roles (directory : Directory) (tenantId principalId : Uuid) : List String :=
  Table.orderedBy id ((directory.memberships.filter fun membership =>
    membership.tenantId = tenantId ∧ membership.principalId = principalId ∧
      membership.role ≠ "integration_client").map (·.role))

/-- The subject, its principal and its tenant are active, and some membership
joins them. -/
def Directory.admits (directory : Directory) (humanSubjectId tenantId principalId : Uuid) : Prop :=
  (humanSubjectId, tenantId, principalId) ∈ directory.activeSubjects ∧
    (principalId, tenantId) ∈ directory.activeUsers ∧ tenantId ∈ directory.activeTenants ∧
    directory.roles tenantId principalId ≠ []

instance (directory : Directory) (subject tenant principal : Uuid) :
    Decidable (directory.admits subject tenant principal) := by
  unfold Directory.admits
  infer_instance

structure Database where
  loginTransactions : List LoginTransaction
  codeClaims : List CodeClaim
  sessions : List SessionRow
  deriving DecidableEq, Repr

namespace Database

variable (db : Database)

def opening : Database where
  loginTransactions := []
  codeClaims := []
  sessions := []

/-! ## The functions -/

/-- `create_human_login_transaction`, which first deletes what is expired and
what was consumed more than ten minutes ago. -/
def createHumanLoginTransaction (clock : Instant) (id : Uuid) (input : LoginInput) :
    Except Failure (Database × Uuid) := do
  require (host.isLogin input.stateSha256 input.browserBindingSha256 input.providerId
      input.protectedChallenge input.returnPath ∧
    clock < input.expiresAt ∧ input.expiresAt ≤ clock + minutes 10)
    (.raised "invalid human login transaction")
  let kept := db.loginTransactions.filter fun row =>
    ¬ (row.expiresAt ≤ clock ∨ ∃ at' ∈ row.consumedAt, at' < clock - minutes 10)
  require (∀ row ∈ kept, row.id ≠ id) (.violated "human_login_transactions_pkey")
  require (∀ row ∈ kept, row.stateSha256 ≠ input.stateSha256)
    (.violated "human_login_transactions_state_sha256_key")
  let row : LoginTransaction := {
    id, stateSha256 := input.stateSha256, browserBindingSha256 := input.browserBindingSha256
    providerId := input.providerId, protectedChallenge := input.protectedChallenge
    returnPath := input.returnPath, createdAt := clock, expiresAt := input.expiresAt
    consumedAt := none }
  require (row.meetsChecks host) (.violated "human_login_transactions_check")
  pure ({ db with loginTransactions := kept ++ [row] }, id)

/-- `consume_human_login_transaction`, with the rows that it returns. -/
def consumeHumanLoginTransaction (clock : Instant) (input : ConsumeInput) :
    Except Failure (Database × List LoginTransaction) := do
  let consumed := (db.loginTransactions.filter (·.consumable input clock)).map (·.consume input)
  require (∀ row ∈ consumed, row.meetsChecks host) (.violated "human_login_transactions_check")
  let rows := Table.updateWhere (·.consumable input clock) (·.consume input) db.loginTransactions
  pure ({ db with loginTransactions := rows }, consumed)

/-- `claim_human_authorization_code`, which first deletes the expired claims. -/
def claimHumanAuthorizationCode (clock : Instant) (providerId : JsString) (codeSha256 : Bytes)
    (expiresAt : Instant) : Database × Bool :=
  if isProviderId providerId = true ∧ codeSha256.length = 32 ∧ clock < expiresAt ∧
      expiresAt ≤ clock + hours 1 then
    let kept := db.codeClaims.filter fun claim => clock < claim.expiresAt
    if ∀ claim ∈ kept, (claim.providerId, claim.codeSha256) ≠ (providerId, codeSha256) then
      ({ db with codeClaims := kept ++ [{
          providerId, codeSha256, claimedAt := clock, expiresAt }] }, true)
    else ({ db with codeClaims := kept }, false)
  else (db, false)

/-- `INSERT INTO identity.human_sessions`. -/
def insertSession (row : SessionRow) : Except Failure Database := do
  require row.meetsChecks (.violated "human_sessions_check")
  require (∀ other ∈ db.sessions, other.id ≠ row.id) (.violated "human_sessions_pkey")
  require (∀ other ∈ db.sessions, other.sessionTokenSha256 ≠ row.sessionTokenSha256)
    (.violated "human_sessions_session_token_sha256_key")
  pure { db with sessions := db.sessions ++ [row] }

/-- `create_human_session`, given the row that it is asked to insert. -/
def createHumanSession (directory : Directory) (clock : Instant) (row : SessionRow) :
    Except Failure (Database × Bool) :=
  if row.sessionTokenSha256.length = 32 ∧ row.csrfSha256.length = 32 ∧ row.generation = 1 ∧
      nearClock clock row.issuedAt ∧ row.issuedAt < row.expiresAt ∧
      row.expiresAt ≤ row.issuedAt + hours 8 ∧
      directory.admits row.humanSubjectId row.tenantId row.principalId then do
    let db ← db.insertSession { row with revokedAt := none, replacedBySessionId := none }
    pure (db, true)
  else pure (db, false)

/-- The session with a token. -/
def session? (sessionTokenSha256 : Bytes) : Option SessionRow :=
  db.sessions.find? (·.sessionTokenSha256 = sessionTokenSha256)

/-- `authenticate_human_session`: the session and its roles. -/
def authenticateHumanSession (directory : Directory) (clock : Instant)
    (sessionTokenSha256 : Bytes) (now : Instant) : Option (SessionRow × List String) :=
  ((db.session? sessionTokenSha256).filter fun row =>
    sessionTokenSha256.length = 32 ∧ row.revokedAt = none ∧ now < row.expiresAt ∧
      nearClock clock now ∧
      directory.admits row.humanSubjectId row.tenantId row.principalId).map fun row =>
    (row, directory.roles row.tenantId row.principalId)

end Database

/-- What `rotate_human_session` is given. -/
structure RotateInput where
  currentTokenSha256 : Bytes
  replacementSessionId : Uuid
  replacementTokenSha256 : Bytes
  replacementCsrfSha256 : Bytes
  issuedAt : Instant
  expiresAt : Instant
  generation : Int
  deriving DecidableEq, Repr

/-- The first check of `rotate_human_session`. -/
def RotateInput.admitted (input : RotateInput) (clock : Instant) : Prop :=
  input.currentTokenSha256.length = 32 ∧ input.replacementTokenSha256.length = 32 ∧
    input.replacementCsrfSha256.length = 32 ∧ nearClock clock input.issuedAt ∧
    input.issuedAt < input.expiresAt ∧ input.expiresAt ≤ input.issuedAt + hours 8

instance (input : RotateInput) (clock : Instant) : Decidable (input.admitted clock) := by
  unfold RotateInput.admitted
  infer_instance

/-- The second check, against the session that has the token. -/
def SessionRow.rotatable (input : RotateInput) (current : SessionRow) : Prop :=
  current.revokedAt = none ∧ input.issuedAt < current.expiresAt ∧
    input.generation = current.generation + 1

instance (input : RotateInput) : DecidablePred (SessionRow.rotatable input) := by
  unfold SessionRow.rotatable
  infer_instance

/-- The row that takes the place of the current session. -/
def SessionRow.replacement (input : RotateInput) (current : SessionRow) : SessionRow where
  id := input.replacementSessionId
  tenantId := current.tenantId
  principalId := current.principalId
  humanSubjectId := current.humanSubjectId
  sessionTokenSha256 := input.replacementTokenSha256
  csrfSha256 := input.replacementCsrfSha256
  issuedAt := input.issuedAt
  expiresAt := input.expiresAt
  revokedAt := none
  replacedBySessionId := none
  generation := input.generation

/-- The current session, once it is replaced. -/
def SessionRow.replaced (input : RotateInput) (current : SessionRow) : SessionRow :=
  { current with
    revokedAt := some input.issuedAt, replacedBySessionId := some input.replacementSessionId }

/-- The session, once it is revoked. -/
def SessionRow.revoke (revokedAt : Instant) (row : SessionRow) : SessionRow :=
  { row with revokedAt := some revokedAt }

/-- The `WHERE` clause of `revoke_human_session`. -/
def SessionRow.revocable (clock : Instant) (sessionTokenSha256 : Bytes) (revokedAt : Instant)
    (row : SessionRow) : Prop :=
  row.sessionTokenSha256 = sessionTokenSha256 ∧ row.revokedAt = none ∧ nearClock clock revokedAt ∧
    sessionTokenSha256.length = 32

instance (clock : Instant) (token : Bytes) (revokedAt : Instant) :
    DecidablePred (SessionRow.revocable clock token revokedAt) := by
  unfold SessionRow.revocable
  infer_instance

namespace Database

variable (db : Database)

/-- `UPDATE identity.human_sessions`. -/
def updateSessions (p : SessionRow → Prop) [DecidablePred p] (f : SessionRow → SessionRow) :
    Except Failure Database := do
  require (∀ row ∈ db.sessions, p row → (f row).meetsChecks) (.violated "human_sessions_check")
  pure { db with sessions := Table.updateWhere p f db.sessions }

/-- `rotate_human_session`. -/
def rotateHumanSession (clock : Instant) (input : RotateInput) :
    Except Failure (Database × Bool) :=
  if input.admitted clock then
    match (db.session? input.currentTokenSha256).filter (·.rotatable input) with
    | some current => do
        let inserted ← db.insertSession (current.replacement input)
        let rotated ← inserted.updateSessions (·.id = current.id) (·.replaced input)
        pure (rotated, true)
    | none => pure (db, false)
  else pure (db, false)

/-- `revoke_human_session`, with the row that it returns, if the person still has
a role. -/
def revokeHumanSession (directory : Directory) (clock : Instant) (sessionTokenSha256 : Bytes)
    (revokedAt : Instant) : Except Failure (Database × Option (SessionRow × List String)) := do
  let after ← db.updateSessions (·.revocable clock sessionTokenSha256 revokedAt) (·.revoke revokedAt)
  let revoked := (db.sessions.find? (·.revocable clock sessionTokenSha256 revokedAt)).map fun row =>
    (row.revoke revokedAt, directory.roles row.tenantId row.principalId)
  pure (after, revoked.filter fun entry => entry.2 ≠ [])

/-! ## What a call does -/

variable {host} {db} {after : Database} {clock : Instant} {directory : Directory}

theorem createHumanLoginTransaction_ok {id : Uuid} {input : LoginInput} {out : Database × Uuid}
    (h : db.createHumanLoginTransaction host clock id input = .ok out) :
    ∃ row : LoginTransaction, row.meetsChecks host ∧ row.stateSha256 = input.stateSha256 ∧
      row.browserBindingSha256 = input.browserBindingSha256 ∧ row.providerId = input.providerId ∧
      row.expiresAt = input.expiresAt ∧ row.consumedAt = none ∧
      out.1 = { db with loginTransactions := (db.loginTransactions.filter fun row =>
        ¬ (row.expiresAt ≤ clock ∨ ∃ at' ∈ row.consumedAt, at' < clock - minutes 10)) ++ [row] } := by
  simp only [createHumanLoginTransaction, then_ok, require_ok, return_ok] at h
  obtain ⟨_, _, _, _, _, _, _, hchecks, rfl⟩ := h
  exact ⟨_, hchecks, rfl, rfl, rfl, rfl, rfl, rfl⟩

theorem consumeHumanLoginTransaction_ok {input : ConsumeInput}
    {out : Database × List LoginTransaction} :
    db.consumeHumanLoginTransaction host clock input = .ok out ↔
      (∀ row ∈ db.loginTransactions, row.consumable input clock →
        (row.consume input).meetsChecks host) ∧
      out.1 = { db with loginTransactions :=
        Table.updateWhere (·.consumable input clock) (·.consume input) db.loginTransactions } ∧
      out.2 = (db.loginTransactions.filter (·.consumable input clock)).map (·.consume input) := by
  simp only [consumeHumanLoginTransaction, then_ok, require_ok, return_ok, List.forall_mem_map,
    List.mem_filter, decide_eq_true_eq, and_imp, exists_const, eq_comm (b := out), Prod.ext_iff]

/-- A claim is refused, or it is new among the claims that have not expired. -/
theorem claimHumanAuthorizationCode_cases (db : Database) (clock : Instant) (providerId : JsString)
    (codeSha256 : Bytes) (expiresAt : Instant) :
    db.claimHumanAuthorizationCode clock providerId codeSha256 expiresAt = (db, false) ∨
      db.claimHumanAuthorizationCode clock providerId codeSha256 expiresAt =
        ({ db with codeClaims := db.codeClaims.filter fun claim => clock < claim.expiresAt },
          false) ∨
      ((∀ claim ∈ db.codeClaims, clock < claim.expiresAt →
          (claim.providerId, claim.codeSha256) ≠ (providerId, codeSha256)) ∧
        clock < expiresAt ∧
        db.claimHumanAuthorizationCode clock providerId codeSha256 expiresAt =
          ({ db with codeClaims := (db.codeClaims.filter fun claim => clock < claim.expiresAt) ++
              [{ providerId, codeSha256, claimedAt := clock, expiresAt }] }, true)) := by
  by_cases hvalid : isProviderId providerId = true ∧ codeSha256.length = 32 ∧ clock < expiresAt ∧
      expiresAt ≤ clock + hours 1
  · by_cases hfresh : ∀ claim ∈ db.codeClaims.filter fun claim => clock < claim.expiresAt,
        (claim.providerId, claim.codeSha256) ≠ (providerId, codeSha256)
    · refine .inr (.inr ⟨fun claim hclaim hlive => ?_, hvalid.2.2.1, ?_⟩)
      · exact hfresh claim (List.mem_filter.mpr ⟨hclaim, decide_eq_true hlive⟩)
      · rw [claimHumanAuthorizationCode, if_pos hvalid]
        exact if_pos hfresh
    · refine .inr (.inl ?_)
      rw [claimHumanAuthorizationCode, if_pos hvalid]
      exact if_neg hfresh
  · exact .inl (if_neg hvalid)

theorem insertSession_ok {row : SessionRow} :
    db.insertSession row = .ok after ↔
      row.meetsChecks ∧ (∀ other ∈ db.sessions, other.id ≠ row.id) ∧
        (∀ other ∈ db.sessions, other.sessionTokenSha256 ≠ row.sessionTokenSha256) ∧
        after = { db with sessions := db.sessions ++ [row] } := by
  simp only [insertSession, then_ok, require_ok, return_ok, exists_const, eq_comm (b := after)]

theorem updateSessions_ok {p : SessionRow → Prop} [DecidablePred p] {f : SessionRow → SessionRow} :
    db.updateSessions p f = .ok after ↔
      (∀ row ∈ db.sessions, p row → (f row).meetsChecks) ∧
        after = { db with sessions := Table.updateWhere p f db.sessions } := by
  simp only [updateSessions, then_ok, require_ok, return_ok, exists_const, eq_comm (b := after)]

theorem session?_some {token : Bytes} {row : SessionRow} (h : db.session? token = some row) :
    row ∈ db.sessions ∧ row.sessionTokenSha256 = token :=
  ⟨List.mem_of_find?_eq_some h, by simpa using List.find?_some h⟩

theorem createHumanSession_ok {row : SessionRow} {out : Database × Bool}
    (h : db.createHumanSession directory clock row = .ok out) :
    out = (db, false) ∨
      row.generation = 1 ∧ out.2 = true ∧
        db.insertSession { row with revokedAt := none, replacedBySessionId := none } =
          .ok out.1 := by
  rw [createHumanSession] at h
  split_ifs at h with hadmitted
  · obtain ⟨inserted, hinsert, h⟩ := then_ok.mp h
    obtain rfl := return_ok.mp h
    exact .inr ⟨hadmitted.2.2.1, rfl, hinsert⟩
  · exact .inl (return_ok.mp h).symm

theorem rotateHumanSession_ok {input : RotateInput} {out : Database × Bool}
    (h : db.rotateHumanSession clock input = .ok out) :
    out = (db, false) ∨
      ∃ current inserted, db.session? input.currentTokenSha256 = some current ∧
        current.rotatable input ∧ out.2 = true ∧
        db.insertSession (current.replacement input) = .ok inserted ∧
        inserted.updateSessions (·.id = current.id) (·.replaced input) = .ok out.1 := by
  rw [rotateHumanSession] at h
  split_ifs at h with hadmitted
  · split at h
    · next current hcurrent =>
        obtain ⟨hfind, hrotatable⟩ := Option.filter_eq_some_iff.mp hcurrent
        obtain ⟨inserted, hinsert, h⟩ := then_ok.mp h
        obtain ⟨rotated, hupdate, h⟩ := then_ok.mp h
        obtain rfl := return_ok.mp h
        exact .inr ⟨current, inserted, hfind, of_decide_eq_true hrotatable, rfl, hinsert, hupdate⟩
    · exact .inl (return_ok.mp h).symm
  · exact .inl (return_ok.mp h).symm

theorem revokeHumanSession_ok {token : Bytes} {revokedAt : Instant}
    {out : Database × Option (SessionRow × List String)}
    (h : db.revokeHumanSession directory clock token revokedAt = .ok out) :
    db.updateSessions (·.revocable clock token revokedAt) (·.revoke revokedAt) = .ok out.1 ∧
      (out.2 ≠ none → ∃ row ∈ db.sessions, row.revocable clock token revokedAt) := by
  simp only [revokeHumanSession, then_ok, return_ok] at h
  obtain ⟨updated, hupdate, rfl⟩ := h
  refine ⟨hupdate, fun hsome => ?_⟩
  cases hfind : db.sessions.find? (·.revocable clock token revokedAt) with
  | none =>
      rw [hfind] at hsome
      exact absurd rfl hsome
  | some row =>
      exact ⟨row, List.mem_of_find?_eq_some hfind, by simpa using List.find?_some hfind⟩

theorem authenticateHumanSession_some {token : Bytes} {now : Instant} {row : SessionRow}
    {roles : List String}
    (h : db.authenticateHumanSession directory clock token now = some (row, roles)) :
    row ∈ db.sessions ∧ row.sessionTokenSha256 = token ∧ row.revokedAt = none ∧
      nearClock clock now ∧ token.length = 32 := by
  obtain ⟨found, hfound, hpair⟩ := Option.map_eq_some_iff.mp h
  obtain ⟨hfind, haccepted⟩ := Option.filter_eq_some_iff.mp hfound
  obtain rfl : found = row := congrArg Prod.fst hpair
  obtain ⟨hlength, hlive, _, hnear, _⟩ := of_decide_eq_true haccepted
  obtain ⟨hmem, htoken⟩ := session?_some hfind
  exact ⟨hmem, htoken, hlive, hnear, hlength⟩

end Database

end HumanSession
