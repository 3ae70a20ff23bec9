import MuniRag.HumanSession.Constraints
import MuniRag.Lib.Runs

/-!
# Clock skew against the constraints

The functions admit an instant of the application five minutes off the clock of
the database, while the checks of the tables compare instants of one row with each
other, and these may come from servers whose clocks differ.  A row that is stamped
by a server ahead of the others cannot be consumed, replaced or revoked by them
until they have caught up: the function finds the row, and the check fails.

So a run is free of such failures exactly as long as no step stamps a row with an
instant before the one that the row carries.
-/

namespace HumanSession

open Results Runs

/-- One call of a function that writes, as the repository makes it. -/
inductive Call
  | createLogin (clock : Instant) (id : Uuid) (input : LoginInput)
  | consume (clock : Instant) (input : ConsumeInput)
  | claim (clock : Instant) (providerId : JsString) (codeSha256 : Bytes) (expiresAt : Instant)
  | create (directory : Directory) (clock : Instant) (row : SessionRow)
  | rotate (clock : Instant) (input : RotateInput)
  | revoke (directory : Directory) (clock : Instant) (sessionTokenSha256 : Bytes)
      (revokedAt : Instant)

variable (host : Host) (db : Database)

/-- The tables after a call; one that fails leaves them alone. -/
def Database.step : Call → Database
  | .createLogin clock id input =>
      settle db ((db.createHumanLoginTransaction host clock id input).map Prod.fst)
  | .consume clock input =>
      settle db ((db.consumeHumanLoginTransaction host clock input).map Prod.fst)
  | .claim clock providerId codeSha256 expiresAt =>
      (db.claimHumanAuthorizationCode clock providerId codeSha256 expiresAt).1
  | .create directory clock row =>
      settle db ((db.createHumanSession directory clock row).map Prod.fst)
  | .rotate clock input => settle db ((db.rotateHumanSession clock input).map Prod.fst)
  | .revoke directory clock token revokedAt =>
      settle db ((db.revokeHumanSession directory clock token revokedAt).map Prod.fst)

/-- **The law.**  Consuming, rotating and revoking do not fail, and a session that
is accepted at an instant is revoked once it is revoked at that instant. -/
def Tolerates : Call → Prop
  | .consume clock input => ∃ out, db.consumeHumanLoginTransaction host clock input = .ok out
  | .rotate clock input => ∃ out, db.rotateHumanSession clock input = .ok out
  | .revoke directory clock token now =>
      (∃ out, db.revokeHumanSession directory clock token now = .ok out) ∧
        ∀ people earlier row roles,
          db.authenticateHumanSession people earlier token now = some (row, roles) →
          nearClock clock now → ∃ revoked ∈ (db.step host (.revoke directory clock token now)).sessions,
            revoked.id = row.id ∧ revoked.revokedAt = some now
  | _ => True

/-- **The condition.**  No row that a step is about to stamp is dated after the
step, and a replacement has a new id, a new token and a generation in range. -/
def InOrder : Call → Prop
  | .consume clock input =>
      ∀ row ∈ db.loginTransactions, row.consumable input clock → row.createdAt ≤ input.now
  | .rotate clock input =>
      input.admitted clock → ∀ current, db.session? input.currentTokenSha256 = some current →
        current.rotatable input →
          current.issuedAt ≤ input.issuedAt ∧ current.generation < 1000000 ∧
            ∀ row ∈ db.sessions, row.id ≠ input.replacementSessionId ∧
              row.sessionTokenSha256 ≠ input.replacementTokenSha256
  | .revoke _ clock token now =>
      ∀ row ∈ db.sessions, row.revocable clock token now → row.issuedAt ≤ now
  | _ => True

variable {host} {db} {clock : Instant} {directory : Directory}

theorem sound_step (h : Sound host db) (call : Call) : Sound host (db.step host call) := by
  have hsettle : ∀ {α : Type} (answer : Except Failure (Database × α)),
      (∀ out, answer = .ok out → Sound host out.1) →
        Sound host (settle db (answer.map Prod.fst)) := by
    intro α answer hok
    refine settle_keeps h fun after hafter => ?_
    cases answer with
    | error failure => cases hafter
    | ok out =>
        obtain rfl : out.1 = after := Except.ok.inj hafter
        exact hok out rfl
  cases call with
  | createLogin clock id input => exact hsettle _ fun _ => h.createLogin
  | consume clock input => exact hsettle _ fun _ => h.consume
  | claim clock providerId codeSha256 expiresAt =>
      exact h.claim clock providerId codeSha256 expiresAt
  | create directory clock row => exact hsettle _ fun _ => h.create
  | rotate clock input => exact hsettle _ fun _ => h.rotate
  | revoke directory clock token revokedAt => exact hsettle _ fun _ => h.revoke

/-! ## What each check comes to -/

theorem consume_meetsChecks {row : LoginTransaction} {input : ConsumeInput}
    (h : row.meetsChecks host) :
    (row.consume input).meetsChecks host ↔ row.createdAt ≤ input.now := by
  obtain ⟨htexts, hexpiry, _⟩ := h
  constructor
  · rintro ⟨_, _, hconsumed⟩
    exact hconsumed input.now rfl
  · intro hnow
    refine ⟨htexts, hexpiry, fun at' hat => ?_⟩
    obtain rfl : input.now = at' := Option.some.inj hat
    exact hnow

/-- Stamping a session as revoked, whoever follows it. -/
theorem stamp_meetsChecks {row stamped : SessionRow} {revokedAt : Instant}
    {successor : Option Uuid} (h : row.meetsChecks)
    (hstamped : stamped =
      { row with revokedAt := some revokedAt, replacedBySessionId := successor }) :
    stamped.meetsChecks ↔ row.issuedAt ≤ revokedAt := by
  obtain ⟨htoken, hcsrf, hlow, hhigh, hexpiry, hbound, _, _⟩ := h
  subst hstamped
  constructor
  · rintro ⟨_, _, _, _, _, _, hrevoked, _⟩
    exact hrevoked revokedAt rfl
  · intro hissued
    refine ⟨htoken, hcsrf, hlow, hhigh, hexpiry, hbound, fun at' hat => ?_, fun hnone => nomatch hnone⟩
    obtain rfl : revokedAt = at' := Option.some.inj hat
    exact hissued

theorem replacement_meetsChecks {current : SessionRow} {input : RotateInput}
    (h : current.meetsChecks) (hadmitted : input.admitted clock)
    (hrotatable : current.rotatable input) :
    (current.replacement input).meetsChecks ↔ current.generation < 1000000 := by
  obtain ⟨_, htoken, hcsrf, _, hexpiry, hbound⟩ := hadmitted
  obtain ⟨_, _, hgeneration⟩ := hrotatable
  obtain ⟨_, _, hlow, _⟩ := h
  constructor
  · rintro ⟨_, _, _, hhigh, _⟩
    have hhigh' : input.generation ≤ 1000000 := hhigh
    omega
  · intro hlt
    refine ⟨htoken, hcsrf, ?_, ?_, hexpiry, hbound, fun _ hat => (nomatch hat), fun _ => rfl⟩
    · change 1 ≤ input.generation
      omega
    · change input.generation ≤ 1000000
      omega

/-! ## The law of one step -/

theorem tolerates_consume (h : Sound host db) (input : ConsumeInput) :
    Tolerates host db (.consume clock input) ↔ InOrder db (.consume clock input) := by
  constructor
  · rintro ⟨out, hout⟩ row hrow hconsumable
    obtain ⟨hchecks, _⟩ := Database.consumeHumanLoginTransaction_ok.mp hout
    exact (consume_meetsChecks (h.logins row hrow)).mp (hchecks row hrow hconsumable)
  · intro horder
    refine ⟨(_, _), Database.consumeHumanLoginTransaction_ok.mpr ⟨?_, rfl, rfl⟩⟩
    intro row hrow hconsumable
    exact (consume_meetsChecks (h.logins row hrow)).mpr (horder row hrow hconsumable)

theorem tolerates_rotate (h : Sound host db) (input : RotateInput) :
    Tolerates host db (.rotate clock input) ↔ InOrder db (.rotate clock input) := by
  rw [Tolerates, InOrder]
  by_cases hadmitted : input.admitted clock
  · cases hfind : (db.session? input.currentTokenSha256).filter (·.rotatable input) with
    | none =>
        refine iff_of_true ⟨(db, false), ?_⟩ fun _ current hcurrent hrotatable => ?_
        · rw [Database.rotateHumanSession, if_pos hadmitted, hfind]
          rfl
        · rw [hcurrent] at hfind
          simp [hrotatable] at hfind
    | some current =>
        obtain ⟨hcurrent, hrotatable⟩ := Option.filter_eq_some_iff.mp hfind
        have hrotatable := of_decide_eq_true hrotatable
        obtain ⟨hmem, _⟩ := Database.session?_some hcurrent
        have hchecks := h.sessions current hmem
        have hcall : db.rotateHumanSession clock input = (do
            let inserted ← db.insertSession (current.replacement input)
            let rotated ← inserted.updateSessions (·.id = current.id) (·.replaced input)
            pure (rotated, true)) := by
          rw [Database.rotateHumanSession, if_pos hadmitted, hfind]
        rw [hcall]
        simp only [then_ok, return_ok, Database.insertSession_ok, Database.updateSessions_ok]
        constructor
        · rintro ⟨_, inserted, ⟨hnew, hid, htoken, rfl⟩, rotated, ⟨hupdated, _⟩, _⟩ _ other
            hother _
          obtain rfl : current = other := Option.some.inj (hcurrent.symm.trans hother)
          refine ⟨?_, (replacement_meetsChecks hchecks hadmitted hrotatable).mp hnew,
            fun row hrow => ⟨hid row hrow, htoken row hrow⟩⟩
          exact (stamp_meetsChecks hchecks rfl).mp
            (hupdated current (List.mem_append_left _ hmem) rfl)
        · intro horder
          obtain ⟨hissued, hgeneration, hfresh⟩ := horder hadmitted current hcurrent hrotatable
          refine ⟨_, _, ⟨(replacement_meetsChecks hchecks hadmitted hrotatable).mpr hgeneration,
            fun row hrow => (hfresh row hrow).1, fun row hrow => (hfresh row hrow).2, rfl⟩, _,
            ⟨fun row hrow hsame => ?_, rfl⟩, rfl⟩
          -- The one row with the id of the current session is the current session.
          rcases List.mem_append.mp hrow with hold | hadded
          · obtain rfl := h.eq_of_id hold hmem hsame
            exact (stamp_meetsChecks hchecks rfl).mpr hissued
          · obtain rfl := List.mem_singleton.mp hadded
            exact absurd hsame.symm (hfresh current hmem).1
  · refine iff_of_true ⟨(db, false), ?_⟩ fun hinput => absurd hinput hadmitted
    rw [Database.rotateHumanSession, if_neg hadmitted]
    rfl

theorem tolerates_revoke (h : Sound host db) (token : Bytes) (now : Instant) :
    Tolerates host db (.revoke directory clock token now) ↔
      InOrder db (.revoke directory clock token now) := by
  have hstamp : ∀ row ∈ db.sessions,
      ((row.revoke now).meetsChecks ↔ row.issuedAt ≤ now) := fun row hrow =>
    stamp_meetsChecks (h.sessions row hrow) rfl
  constructor
  · rintro ⟨⟨out, hout⟩, _⟩ row hrow hrevocable
    obtain ⟨hupdate, _⟩ := Database.revokeHumanSession_ok hout
    obtain ⟨hchecks, _⟩ := Database.updateSessions_ok.mp hupdate
    exact (hstamp row hrow).mp (hchecks row hrow hrevocable)
  · intro horder
    have hchecks : ∀ row ∈ db.sessions, row.revocable clock token now →
        (row.revoke now).meetsChecks :=
      fun row hrow hrevocable => (hstamp row hrow).mpr (horder row hrow hrevocable)
    have hok : ∃ out, db.revokeHumanSession directory clock token now = .ok out := by
      refine ⟨_, then_ok.mpr ⟨_, Database.updateSessions_ok.mpr ⟨hchecks, rfl⟩, rfl⟩⟩
    refine ⟨hok, fun people earlier row roles haccepted hnear => ?_⟩
    obtain ⟨out, hout⟩ := hok
    obtain ⟨hupdate, _⟩ := Database.revokeHumanSession_ok hout
    obtain ⟨_, hafter⟩ := Database.updateSessions_ok.mp hupdate
    obtain ⟨hmem, htoken, hlive, _, hlength⟩ :=
      Database.authenticateHumanSession_some haccepted
    have hrevocable : row.revocable clock token now := ⟨htoken, hlive, hnear, hlength⟩
    have hstep : db.step host (.revoke directory clock token now) = out.1 := by
      rw [Database.step, hout]
      rfl
    refine ⟨row.revoke now, ?_, rfl, rfl⟩
    rw [hstep, hafter]
    exact Table.mem_updateWhere.mpr (.inl ⟨row, hmem, hrevocable, rfl⟩)

/-- **Session steps under clock skew.**  The steps of a run never fail on a table
constraint exactly when each of them stamps rows in the order of their dates. -/
theorem clock_skew_iff (host : Host) (calls : List Call) :
    EachStep (Database.step host) (Tolerates host) .opening calls ↔
      EachStep (Database.step host) InOrder .opening calls := by
  have hkeep : ∀ (db : Database) call, Sound host db → InOrder db call →
      Sound host (db.step host call) := fun _ call h _ => sound_step h call
  refine eachStep_iff_eachStep hkeep (fun db call h => ?_) (sound_opening host) calls
  cases call with
  | createLogin | claim | create => exact Iff.rfl
  | consume clock input => exact tolerates_consume h input
  | rotate clock input => exact tolerates_rotate h input
  | revoke directory clock token now => exact tolerates_revoke h token now

/-! ## A logout that fails -/

def sampleDirectory : Directory where
  activeSubjects := [(3, 1, 2)]
  activeUsers := [(2, 1)]
  activeTenants := [1]
  memberships := [{ tenantId := 1, principalId := 2, role := "procedure_author" }]

def sampleToken (d : UInt8) : Bytes := List.replicate 32 d

/-- A session that a server four minutes ahead issued, and a logout at another. -/
def sampleLogout : List Call :=
  [.create sampleDirectory 0 {
      id := 4, tenantId := 1, principalId := 2, humanSubjectId := 3
      sessionTokenSha256 := sampleToken 5, csrfSha256 := sampleToken 6, issuedAt := minutes 4
      expiresAt := hours 1, revokedAt := none, replacedBySessionId := none, generation := 1 },
    .revoke sampleDirectory (minutes 1) (sampleToken 5) (minutes 1)]

/-- One character for each code unit, and none of them a control character. -/
def plainHost : Host where
  charLength := List.length
  hasControl := fun _ => false

/-- The logout finds its session, and the check of the table refuses it. -/
theorem logout_fails :
    ¬ EachStep (Database.step plainHost) (Tolerates plainHost) .opening sampleLogout := by
  rintro ⟨_, ⟨⟨out, hout⟩, _⟩, _⟩
  have hrefused : ((run (Database.step plainHost) .opening (sampleLogout.take 1)).revokeHumanSession
      sampleDirectory (minutes 1) (sampleToken 5) (minutes 1)).toBool = false := by
    decide +kernel
  have hdone := congrArg Except.toBool hout
  exact nomatch hrefused.symm.trans hdone

end HumanSession
