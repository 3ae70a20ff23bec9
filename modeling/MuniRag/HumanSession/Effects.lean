import MuniRag.HumanSession.Handler

/-!
# What a step of a request does

Whatever the request and the environment, one step does one of a few things to the
tables and the log (`Effect`).  Every law of the runs is proved from these cases.
-/

namespace HumanSession

open Results

/-- The login state that a callback has consumed and not yet used up. -/
def Request.pending : Request → Option Bytes
  | .callback input .consumed => some input.stateSha256
  | .callback input .claimed => some input.stateSha256
  | _ => none

inductive Effect (host : Host) (db : Database) (request : Request) : Outcome → Prop
  | idle (next : Request) (hnext : next.pending = none) :
      Effect host db request { db, entries := [], request := next }
  | consumed {out : Database × List LoginTransaction} (clock : Instant) (input : ConsumeInput)
      (next : Request) (hcall : db.consumeHumanLoginTransaction host clock input = .ok out)
      (hbefore : request.pending = none)
      (hnext : ∀ state, next.pending = some state →
        state = input.stateSha256 ∧ out.2.length = 1) :
      Effect host db request {
        db := out.1, entries := out.2.map fun row => .consumed row.ticket input.now
        request := next }
  | claimed (clock : Instant) (providerId : JsString) (codeSha256 : Bytes) (expiresAt : Instant)
      (next : Request) (hnext : next.pending = none ∨ next.pending = request.pending) :
      Effect host db request {
        db := (db.claimHumanAuthorizationCode clock providerId codeSha256 expiresAt).1
        entries := [.claim clock providerId codeSha256 expiresAt
          (db.claimHumanAuthorizationCode clock providerId codeSha256 expiresAt).2]
        request := next }
  | opened {after : Database} {row : SessionRow} {state : Bytes} (next : Request)
      (hbefore : request.pending = some state) (hnext : next.pending = none)
      (hgeneration : row.generation = 1) (hnewest : row.replacedBySessionId = none)
      (hinsert : db.insertSession row = .ok after) :
      Effect host db request { db := after, entries := [.opened state row.id], request := next }
  | authenticated {row : SessionRow} (token : Bytes) (next : Request)
      (hnext : next.pending = none) (hrow : row ∈ db.sessions)
      (htoken : row.sessionTokenSha256 = token) (hlive : row.revokedAt = none) :
      Effect host db request { db, entries := [.authenticated token], request := next }
  | rotated {current : SessionRow} {inserted after : Database} (input : RotateInput)
      (next : Request) (hnext : next.pending = none)
      (hcurrent : db.session? input.currentTokenSha256 = some current)
      (hrotatable : current.rotatable input)
      (hinsert : db.insertSession (current.replacement input) = .ok inserted)
      (hupdate : inserted.updateSessions (·.id = current.id) (·.replaced input) = .ok after) :
      Effect host db request {
        db := after, entries := [.rotated input.currentTokenSha256], request := next }
  | revoked {after : Database} {row : SessionRow} {entries : List Entry} (clock : Instant)
      (token : Bytes) (revokedAt : Instant) (next : Request) (hnext : next.pending = none)
      (hrow : row ∈ db.sessions) (hrevocable : row.revocable clock token revokedAt)
      (hupdate : db.updateSessions (·.revocable clock token revokedAt) (·.revoke revokedAt) =
        .ok after)
      (hentries : entries = [.revoked token] ∨ entries = [.loggedOut token, .revoked token]) :
      Effect host db request { db := after, entries, request := next }

variable {config : Config} {host : Host} {environment : Environment} {db : Database}
variable {request : Request}

/-- A revocation reaches a live session, or it changes nothing and returns
nothing. -/
theorem revokeSession_cases (environment : Environment) (db : Database) (token : Bytes)
    (now : Instant) :
    revokeSession environment db token now = (db, [], none) ∨
      ∃ row after answer, row ∈ db.sessions ∧ row.revocable environment.clock token now ∧
        db.updateSessions (·.revocable environment.clock token now) (·.revoke now) = .ok after ∧
        revokeSession environment db token now = (after, [.revoked token], answer) := by
  rw [revokeSession]
  split
  · next after answer hcall =>
      obtain ⟨hupdate, hanswer⟩ := Database.revokeHumanSession_ok hcall
      by_cases hsome : ∃ row ∈ db.sessions, row.revocable environment.clock token now
      · obtain ⟨row, hrow, hrevocable⟩ := hsome
        refine .inr ⟨row, after, answer, hrow, hrevocable, hupdate, ?_⟩
        rw [if_pos ⟨row, hrow, hrevocable⟩]
      · obtain ⟨_, hafter⟩ := Database.updateSessions_ok.mp hupdate
        have hsame : after = db := by
          rw [Table.updateWhere_none fun row hrow hp => hsome ⟨row, hrow, hp⟩] at hafter
          exact hafter
        have hnone : answer = none := by
          by_contra hne
          exact hsome (hanswer hne)
        rw [if_neg hsome, hsame, hnone]
        exact .inl rfl
  · exact .inl rfl

theorem auditOrRevoke_effect (token : Bytes) (now : Instant) {next : Request}
    (hnext : next.pending = none) :
    Effect host db request (auditOrRevoke environment db token now next) := by
  rw [auditOrRevoke]
  split_ifs
  · rcases revokeSession_cases environment db token now with
      hsame | ⟨row, after, answer, hrow, hrevocable, hupdate, hrevoked⟩
    · rw [hsame]
      exact .idle next hnext
    · rw [hrevoked]
      exact .revoked environment.clock token now next hnext hrow hrevocable hupdate (.inl rfl)
  · exact .idle next hnext

theorem authenticateRequest_effect (input : SessionInput) {resume : SessionPhase → Request}
    (hresume : ∀ phase, (resume phase).pending = none) :
    Effect host db request (authenticateRequest config environment db input resume) := by
  rw [authenticateRequest]
  split
  · next session roles haccepted =>
      obtain ⟨hrow, htoken, hlive, _⟩ := Database.authenticateHumanSession_some haccepted
      exact .authenticated _ _ (hresume _) hrow htoken hlive
  · exact .idle _ (hresume _)

theorem handleCallback_effect (input : CallbackInput) (phase : CallbackPhase) :
    Effect host db (.callback input phase)
      (handleCallback config host environment db input phase) := by
  cases phase with
  | arrived =>
      rw [handleCallback]
      split
      · next after rows hcall =>
          refine .consumed environment.clock _ _ hcall rfl fun state hstate => ?_
          by_cases hlength : rows.length = 1
          · rw [if_pos hlength] at hstate
            exact ⟨(Option.some.inj hstate).symm, hlength⟩
          · rw [if_neg hlength] at hstate
            cases hstate
      · exact .idle _ rfl
  | consumed =>
      refine .claimed _ _ _ _ _ ?_
      split_ifs
      · exact .inr rfl
      · exact .inl rfl
  | claimed =>
      rw [handleCallback]
      split
      · dsimp only
        split
        · next hcreate =>
            rcases Database.createHumanSession_ok hcreate with hsame | ⟨_, _, hinsert⟩
            · exact nomatch (Prod.ext_iff.mp hsame).2
            · exact .opened _ rfl rfl rfl rfl hinsert
        · exact .idle _ rfl
      · exact .idle _ rfl
  | opened token => exact auditOrRevoke_effect token input.now rfl
  | finished => exact .idle _ rfl

theorem handleRenewal_effect (input : SessionInput) (phase : SessionPhase) :
    Effect host db (.renew input phase)
      (handleRenewal config environment db input phase) := by
  cases phase with
  | arrived => exact authenticateRequest_effect input fun _ => rfl
  | authenticated session =>
      rw [handleRenewal]
      split
      · next hrotate =>
          rcases Database.rotateHumanSession_ok hrotate with
            hsame | ⟨current, inserted, hcurrent, hrotatable, _, hinsert, hupdate⟩
          · exact nomatch (Prod.ext_iff.mp hsame).2
          · exact .rotated _ _ rfl hcurrent hrotatable hinsert hupdate
      · exact .idle _ rfl
  | renewed token => exact auditOrRevoke_effect token input.now rfl
  | finished => exact .idle _ rfl

theorem handleLogout_effect (input : SessionInput) (phase : SessionPhase) :
    Effect host db (.logout input phase)
      (handleLogout config environment db input phase) := by
  cases phase with
  | arrived => exact authenticateRequest_effect input fun _ => rfl
  | authenticated session =>
      rw [handleLogout]
      rcases revokeSession_cases environment db input.sessionTokenSha256 input.now with
        hsame | ⟨row, after, answer, hrow, hrevocable, hupdate, hrevoked⟩
      · rw [hsame]
        exact .idle _ rfl
      · rw [hrevoked]
        refine .revoked environment.clock _ input.now _ rfl hrow hrevocable hupdate ?_
        split_ifs
        · exact .inr rfl
        · exact .inl rfl
  | renewed token => exact .idle _ rfl
  | finished => exact .idle _ rfl

theorem act_effect (config : Config) (host : Host) (environment : Environment) (db : Database)
    (request : Request) : Effect host db request (request.act config host environment db) := by
  cases request with
  | callback input phase => exact handleCallback_effect input phase
  | renew input phase => exact handleRenewal_effect input phase
  | logout input phase => exact handleLogout_effect input phase

end HumanSession
