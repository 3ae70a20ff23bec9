import MuniRag.HumanSession.Lineage
import MuniRag.HumanSession.OneUse

/-!
# Human sessions over whole runs

The laws of the login states, the codes and the sessions together, for every
interleaving of the requests.  For the sessions the invariant is that they stand in
lineages and that the log only knows a token as ended when its row is revoked;
since a step only uses a token whose row is live, and rows are never revived, no
ended token is used again.
-/

namespace HumanSession

open Results Runs

/-- The step that the token did not survive. -/
def Entry.ends (token : Bytes) : Entry → Prop
  | .rotated other | .revoked other => other = token
  | _ => False

def Entry.uses (token : Bytes) : Entry → Prop
  | .authenticated other | .rotated other | .revoked other => other = token
  | _ => False

/-- The sessions against the log. -/
structure SessionsKept (host : Host) (db : Database) (log : List Entry) : Prop where
  sound : Sound host db
  lineages : Lineages (fun token => .revoked token ∈ log) db
  stored : ∀ token, (∃ entry ∈ log, entry.ends token) →
    ∃ row ∈ db.sessions, row.sessionTokenSha256 = token ∧ row.revokedAt ≠ none
  loggedOut : ∀ token, .loggedOut token ∈ log → .revoked token ∈ log
  first : ∀ row ∈ db.sessions, row.generation = 1 → ∃ state, .opened state row.id ∈ log
  order : log.Pairwise fun newer older => ∀ token, older.ends token → ¬ newer.uses token

variable {config : Config} {host : Host} {system : System} {db after : Database}
variable {log : List Entry} {request : Request} {row current : SessionRow} {token : Bytes}

/-- A live token was never ended. -/
theorem SessionsKept.not_ended (h : SessionsKept host db log) (hrow : row ∈ db.sessions)
    (htoken : row.sessionTokenSha256 = token) (hlive : row.revokedAt = none) :
    ∀ older ∈ log, ¬ older.ends token := by
  intro older holder hends
  obtain ⟨dead, hdead, hsame, hrevoked⟩ := h.stored token ⟨older, holder, hends⟩
  rw [h.sound.eq_of_token hdead hrow (hsame.trans htoken.symm)] at hrevoked
  exact hrevoked hlive

/-- One more entry, which uses no ended token. -/
theorem order_cons {entry : Entry}
    (h : log.Pairwise fun newer older => ∀ token, older.ends token → ¬ newer.uses token)
    (hentry : ∀ token, entry.uses token → ∀ older ∈ log, ¬ older.ends token) :
    (entry :: log).Pairwise fun newer older => ∀ token, older.ends token → ¬ newer.uses token :=
  List.pairwise_cons.mpr
    ⟨fun older holder token hends huses => hentry token huses older holder hends, h⟩

/-- What is about no session. -/
def Entry.isSessionless : Entry → Bool
  | .created _ | .consumed _ _ | .claim _ _ _ _ _ => true
  | _ => false

theorem SessionsKept.cons_frame (h : SessionsKept host db log) {entry : Entry}
    (hentry : entry.isSessionless = true ∨ ∃ token, entry = .authenticated token ∧
      ∀ older ∈ log, ¬ older.ends token) : SessionsKept host db (entry :: log) := by
  have hends : ∀ token, ¬ entry.ends token := by
    rcases hentry with hless | ⟨_, rfl, _⟩
    · cases entry <;> simp_all [Entry.isSessionless, Entry.ends]
    · exact fun _ h => h
  have hnot : ∀ token, entry ≠ .revoked token ∧ entry ≠ .loggedOut token := by
    rcases hentry with hless | ⟨_, rfl, _⟩
    · cases entry <;> simp_all [Entry.isSessionless]
    · exact fun _ => ⟨nofun, nofun⟩
  have hrevoked : ∀ token, Entry.revoked token ∈ entry :: log ↔ .revoked token ∈ log :=
    fun token => List.mem_cons.trans (or_iff_right (hnot token).1.symm)
  refine ⟨h.sound, ?_, fun token hended => ?_, fun token hout => ?_, fun row hrow hone => ?_, ?_⟩
  · simp only [hrevoked]
    exact h.lineages
  · obtain ⟨ended, hmem, hthis⟩ := hended
    rcases List.mem_cons.mp hmem with rfl | hold
    · exact absurd hthis (hends token)
    · exact h.stored token ⟨ended, hold, hthis⟩
  · rcases List.mem_cons.mp hout with hnew | hold
    · exact absurd hnew.symm (hnot token).2
    · exact (hrevoked token).mpr (h.loggedOut token hold)
  · obtain ⟨state, hopened⟩ := h.first row hrow hone
    exact ⟨state, List.mem_cons_of_mem _ hopened⟩
  · refine order_cons h.order fun token huses older holder => ?_
    rcases hentry with hless | ⟨_, rfl, hfree⟩
    · cases entry <;> simp_all [Entry.isSessionless, Entry.uses]
    · obtain rfl := huses
      exact hfree older holder

/-- The tables of the other laws do not matter here. -/
theorem SessionsKept.congr (h : SessionsKept host db log) (hsound : Sound host after)
    (hsessions : after.sessions = db.sessions) : SessionsKept host after log := by
  refine ⟨hsound, ?_, ?_, h.loggedOut, ?_, h.order⟩
  · rw [Lineages, hsessions]
    exact h.lineages
  · rw [hsessions]
    exact h.stored
  · rw [hsessions]
    exact h.first

theorem SessionsKept.opened (h : SessionsKept host db log) {state : Bytes}
    (hgeneration : row.generation = 1) (hnewest : row.replacedBySessionId = none)
    (hinsert : db.insertSession row = .ok after) :
    SessionsKept host after (.opened state row.id :: log) := by
  have hlineages := h.lineages.insert (fun token hrevoked =>
    (h.stored token ⟨_, hrevoked, rfl⟩).imp fun _ hrow => ⟨hrow.1, hrow.2.1⟩) hgeneration hnewest
    hinsert
  have hsound := h.sound.insertSession hinsert
  obtain ⟨_, _, _, rfl⟩ := Database.insertSession_ok.mp hinsert
  refine ⟨hsound, ?_, fun token hended => ?_, fun token hout => ?_, fun other hother hone => ?_,
    order_cons h.order fun _ huses => (nomatch huses)⟩
  · simpa using hlineages
  · obtain ⟨ended, hmem, hthis⟩ := hended
    rcases List.mem_cons.mp hmem with rfl | hold
    · cases hthis
    · obtain ⟨dead, hdead, hrest⟩ := h.stored token ⟨ended, hold, hthis⟩
      exact ⟨dead, List.mem_append_left _ hdead, hrest⟩
  · rcases List.mem_cons.mp hout with hnew | hold
    · cases hnew
    · exact List.mem_cons_of_mem _ (h.loggedOut token hold)
  · rcases List.mem_append.mp hother with hold | hnew
    · obtain ⟨opener, hopened⟩ := h.first other hold hone
      exact ⟨opener, List.mem_cons_of_mem _ hopened⟩
    · obtain rfl := List.mem_singleton.mp hnew
      exact ⟨state, List.mem_cons_self⟩

theorem SessionsKept.rotated (h : SessionsKept host db log) {input : RotateInput}
    {inserted : Database} (hcurrent : db.session? input.currentTokenSha256 = some current)
    (hrotatable : current.rotatable input)
    (hinsert : db.insertSession (current.replacement input) = .ok inserted)
    (hupdate : inserted.updateSessions (·.id = current.id) (·.replaced input) = .ok after) :
    SessionsKept host after (.rotated input.currentTokenSha256 :: log) := by
  obtain ⟨hmem, htoken⟩ := Database.session?_some hcurrent
  have hlineages := h.lineages.rotate h.sound (fun token hrevoked =>
    (h.stored token ⟨_, hrevoked, rfl⟩).imp fun _ hrow => ⟨hrow.1, hrow.2.1⟩) hmem hrotatable
    hinsert hupdate
  have hsound := (h.sound.insertSession hinsert).updateSessions hupdate (fun _ => rfl) fun _ => rfl
  obtain ⟨hlive, _, hgeneration⟩ := hrotatable
  obtain ⟨_, _, _, rfl⟩ := Database.insertSession_ok.mp hinsert
  obtain ⟨_, rfl⟩ := Database.updateSessions_ok.mp hupdate
  refine ⟨hsound, ?_, fun token hended => ?_, fun token hout => ?_, fun other hother hone => ?_,
    order_cons h.order fun token huses => ?_⟩
  · simpa using hlineages
  · obtain ⟨ended, hentry, hthis⟩ := hended
    rcases List.mem_cons.mp hentry with rfl | hold
    · refine ⟨current.replaced input, ?_, htoken.trans hthis, fun h => by cases h⟩
      exact Table.mem_updateWhere.mpr (.inl ⟨current, List.mem_append_left _ hmem, rfl, rfl⟩)
    · obtain ⟨dead, hdead, hsame, hrevoked⟩ := h.stored token ⟨ended, hold, hthis⟩
      have hne : dead.id ≠ current.id := by
        intro hid
        rw [h.sound.eq_of_id hdead hmem hid] at hrevoked
        exact hrevoked hlive
      refine ⟨dead, ?_, hsame, hrevoked⟩
      exact Table.mem_updateWhere.mpr (.inr ⟨List.mem_append_left _ hdead, hne⟩)
  · rcases List.mem_cons.mp hout with hnew | hold
    · cases hnew
    · exact List.mem_cons_of_mem _ (h.loggedOut token hold)
  · have hopened : ∀ old ∈ db.sessions, old.generation = 1 →
        ∃ state, .opened state old.id ∈ Entry.rotated input.currentTokenSha256 :: log := by
      intro old hold hfirst
      obtain ⟨state, hstate⟩ := h.first old hold hfirst
      exact ⟨state, List.mem_cons_of_mem _ hstate⟩
    -- A replacement has a generation above one.
    have hnew : (current.replacement input).generation ≠ 1 := by
      have hlow := (h.sound.sessions current hmem).2.2.1
      change input.generation ≠ 1
      omega
    rcases Table.mem_updateWhere.mp hother with ⟨old, hold, hid, rfl⟩ | ⟨hold, _⟩
    · rcases List.mem_append.mp hold with hstored | hadded
      · exact hopened old hstored hone
      · obtain rfl := List.mem_singleton.mp hadded
        exact absurd hone hnew
    · rcases List.mem_append.mp hold with hstored | hadded
      · exact hopened other hstored hone
      · obtain rfl := List.mem_singleton.mp hadded
        exact absurd hone hnew
  · obtain rfl := huses
    exact h.not_ended hmem htoken hlive

theorem SessionsKept.revoked (h : SessionsKept host db log) {clock revokedAt : Instant}
    (hrow : row ∈ db.sessions) (hrevocable : row.revocable clock token revokedAt)
    (hupdate : db.updateSessions (·.revocable clock token revokedAt) (·.revoke revokedAt) =
      .ok after) : SessionsKept host after (.revoked token :: log) := by
  have hlineages := h.lineages.revoke h.sound hupdate
  have hsound := h.sound.updateSessions hupdate (fun _ => rfl) fun _ => rfl
  obtain ⟨_, rfl⟩ := Database.updateSessions_ok.mp hupdate
  have hended : ∀ other, Entry.revoked other ∈ Entry.revoked token :: log ↔
      (.revoked other ∈ log ∨
        (other = token ∧ ∃ row ∈ db.sessions, row.revocable clock token revokedAt)) := by
    intro other
    have hsome : ∃ row ∈ db.sessions, row.revocable clock token revokedAt :=
      ⟨row, hrow, hrevocable⟩
    simp only [List.mem_cons, Entry.revoked.injEq, hsome, and_true]
    exact or_comm
  refine ⟨hsound, ?_, fun other hended => ?_, fun other hout => ?_, fun other hother hone => ?_,
    order_cons h.order fun other huses => ?_⟩
  · simp only [hended]
    exact hlineages
  · obtain ⟨ended, hentry, hthis⟩ := hended
    rcases List.mem_cons.mp hentry with rfl | hold
    · refine ⟨row.revoke revokedAt, ?_, hrevocable.1.trans hthis, fun h => by cases h⟩
      exact Table.mem_updateWhere.mpr (.inl ⟨row, hrow, hrevocable, rfl⟩)
    · obtain ⟨dead, hdead, hsame, hrevoked⟩ := h.stored other ⟨ended, hold, hthis⟩
      refine ⟨dead, ?_, hsame, hrevoked⟩
      exact Table.mem_updateWhere.mpr (.inr ⟨hdead, fun hlive => hrevoked hlive.2.1⟩)
  · rcases List.mem_cons.mp hout with hnew | hold
    · cases hnew
    · exact List.mem_cons_of_mem _ (h.loggedOut other hold)
  · rcases Table.mem_updateWhere.mp hother with ⟨old, hold, _, rfl⟩ | ⟨hold, _⟩
    · obtain ⟨state, hstate⟩ := h.first old hold hone
      exact ⟨state, List.mem_cons_of_mem _ hstate⟩
    · obtain ⟨state, hstate⟩ := h.first other hold hone
      exact ⟨state, List.mem_cons_of_mem _ hstate⟩
  · obtain rfl := huses
    exact h.not_ended hrow hrevocable.1 hrevocable.2.1

/-- A logout is told after the revocation that it is. -/
theorem SessionsKept.loggedOut_cons (h : SessionsKept host db log)
    (hrevoked : .revoked token ∈ log) : SessionsKept host db (.loggedOut token :: log) := by
  refine ⟨h.sound, ?_, fun other hended => ?_, fun other hout => ?_, fun other hother hone => ?_,
    order_cons h.order fun _ huses => (nomatch huses)⟩
  · simpa using h.lineages
  · obtain ⟨ended, hentry, hthis⟩ := hended
    rcases List.mem_cons.mp hentry with rfl | hold
    · cases hthis
    · exact h.stored other ⟨ended, hold, hthis⟩
  · rcases List.mem_cons.mp hout with hnew | hold
    · obtain rfl := Entry.loggedOut.inj hnew
      exact List.mem_cons_of_mem _ hrevoked
    · exact List.mem_cons_of_mem _ (h.loggedOut other hold)
  · obtain ⟨state, hstate⟩ := h.first other hother hone
    exact ⟨state, List.mem_cons_of_mem _ hstate⟩

theorem sessionsKept_effect {outcome : Outcome} (h : SessionsKept host db log)
    (heffect : Effect host db request outcome) :
    SessionsKept host outcome.db (outcome.entries ++ log) := by
  cases heffect with
  | idle next => exact h
  | @consumed out clock input next hcall =>
      have hsound := h.sound.consume hcall
      obtain ⟨_, hafter, _⟩ := Database.consumeHumanLoginTransaction_ok.mp hcall
      have hkept := h.congr hsound (by rw [hafter])
      dsimp only
      induction out.2 with
      | nil => exact hkept
      | cons row rows ih => exact ih.cons_frame (.inl rfl)
  | claimed clock providerId codeSha256 expiresAt next =>
      refine (h.congr (h.sound.claim clock providerId codeSha256 expiresAt) ?_).cons_frame (.inl rfl)
      rcases db.claimHumanAuthorizationCode_cases clock providerId codeSha256 expiresAt with
        hout | hout | ⟨_, _, hout⟩
      all_goals rw [hout]
  | opened next _ _ hgeneration hnewest hinsert => exact h.opened hgeneration hnewest hinsert
  | authenticated token next _ hrow htoken hlive =>
      exact h.cons_frame (.inr ⟨token, rfl, h.not_ended hrow htoken hlive⟩)
  | rotated input next _ hcurrent hrotatable hinsert hupdate =>
      exact h.rotated hcurrent hrotatable hinsert hupdate
  | revoked clock token revokedAt next _ hrow hrevocable hupdate hentries =>
      have hkept := h.revoked hrow hrevocable hupdate
      dsimp only
      rcases hentries with rfl | rfl
      · exact hkept
      · exact hkept.loggedOut_cons List.mem_cons_self

theorem sessionsKept_step (h : SessionsKept host system.db system.log) (event : Event) :
    SessionsKept host (system.step config host event).db (system.step config host event).log := by
  cases event with
  | login clock id input =>
      rw [System.step]
      split
      · next after created hcall =>
          have hsound := h.sound.createLogin hcall
          obtain ⟨_, _, _, _, _, _, _, hafter⟩ := Database.createHumanLoginTransaction_ok hcall
          exact (h.congr hsound (by rw [hafter])).cons_frame (.inl rfl)
      · exact h
  | callback | renew | logout => exact h
  | advance index environment =>
      rw [System.step]
      split
      · exact sessionsKept_effect h (act_effect config host environment _ _)
      · exact h

/-! ## The laws -/

/-- Nothing can be done with the token any more. -/
def Refuses (db : Database) (token : Bytes) : Prop :=
  ∀ directory clock now,
    db.authenticateHumanSession directory clock token now = none ∧
      (∀ input : RotateInput, input.currentTokenSha256 = token →
        db.rotateHumanSession clock input = .ok (db, false)) ∧
      db.revokeHumanSession directory clock token now = .ok (db, none)

/-- **The laws of the human sessions.** -/
structure Laws (system : System) : Prop where
  /-- A login transaction is consumed at most once, with its own cookie and provider. -/
  stateOnce : ∀ ticket,
    system.log.countP (·.consumes ticket) ≤ system.log.countP (·.creates ticket)
  /-- It is consumed before it expires. -/
  stateInTime : ∀ ticket now, .consumed ticket now ∈ system.log → now < ticket.expiresAt
  /-- A state leads to at most as many first sessions as it was consumed. -/
  sessionOnce : ∀ state,
    system.log.countP (·.opensFor state) ≤ system.log.countP (·.consumesState state)
  firstSession : ∀ row ∈ system.db.sessions, row.generation = 1 →
    ∃ state, .opened state row.id ∈ system.log
  codeOnce : ClaimedOnce system.log
  ids : (system.db.sessions.map (·.id)).Nodup
  tokens : (system.db.sessions.map (·.sessionTokenSha256)).Nodup
  /-- The sessions are lineages, and one of which a token was logged out has no live
  session. -/
  lineages : Lineages (fun token => .loggedOut token ∈ system.log) system.db
  /-- No token is used after its session was rotated away or revoked. -/
  order : system.log.Pairwise fun newer older => ∀ token, older.ends token → ¬ newer.uses token
  dead : ∀ row ∈ system.db.sessions, row.revokedAt ≠ none →
    Refuses system.db row.sessionTokenSha256

theorem Sound.refuses (h : Sound host db) (hrow : row ∈ db.sessions)
    (hrevoked : row.revokedAt ≠ none) : Refuses db row.sessionTokenSha256 := by
  have hfind := h.session?_eq hrow
  have hnone : ∀ clock now, ∀ other ∈ db.sessions,
      ¬ other.revocable clock row.sessionTokenSha256 now := by
    intro clock now other hother hrevocable
    obtain rfl := h.eq_of_token hother hrow hrevocable.1
    exact hrevoked hrevocable.2.1
  refine fun directory clock now => ⟨?_, fun input htoken => ?_, ?_⟩
  · simp [Database.authenticateHumanSession, hfind, hrevoked]
  · rw [Database.rotateHumanSession, htoken, hfind]
    have hstopped : (some row).filter (·.rotatable input) = none := by
      simp [Option.filter, SessionRow.rotatable, hrevoked]
    rw [hstopped]
    exact ite_self _
  · have hupdate : db.updateSessions (·.revocable clock row.sessionTokenSha256 now)
        (·.revoke now) = .ok db := by
      refine Database.updateSessions_ok.mpr ⟨fun other hother hrevocable =>
        absurd hrevocable (hnone clock now other hother), ?_⟩
      rw [Table.updateWhere_none (hnone clock now)]
    have hmissing : db.sessions.find? (·.revocable clock row.sessionTokenSha256 now) = none := by
      simpa using hnone clock now
    rw [Database.revokeHumanSession, hupdate, hmissing]
    rfl

/-- The invariants of the three tables. -/
structure Kept (host : Host) (system : System) : Prop where
  states : StatesPaid system
  codes : CodesHeld system.db.codeClaims system.log
  sessions : SessionsKept host system.db system.log

theorem kept_opening (host : Host) : Kept host .opening where
  states := statesPaid_opening
  codes := ⟨trivial, fun _ _ _ hheld => nomatch hheld⟩
  sessions := {
    sound := sound_opening host
    lineages := Chains.splits_nil
    stored := fun _ ⟨_, hentry, _⟩ => nomatch hentry
    loggedOut := fun _ hout => nomatch hout
    first := fun _ hrow => nomatch hrow
    order := List.Pairwise.nil }

/-- **Step lemma.** -/
theorem Kept.step (h : Kept host system) (event : Event) :
    Kept host (system.step config host event) :=
  ⟨statesPaid_step h.states event, codesHeld_step h.codes event, sessionsKept_step h.sessions event⟩

theorem Kept.laws (h : Kept host system) : Laws system where
  stateOnce := fun ticket => Nat.le_trans (Nat.le_add_left ..) (h.states.tickets ticket)
  stateInTime := h.states.inTime
  sessionOnce := fun state => Nat.le_trans (Nat.le_add_right ..) (h.states.sessions state)
  firstSession := h.sessions.first
  codeOnce := h.codes.once
  ids := h.sessions.sound.ids
  tokens := h.sessions.sound.tokens
  lineages := by
    obtain ⟨chains, hperm, hchains⟩ := h.sessions.lineages
    exact ⟨chains, hperm, fun chain hchain =>
      (hchains chain hchain).congr fun row _ hout => h.sessions.loggedOut _ hout⟩
  order := h.sessions.order
  dead := fun _ hrow hrevoked => h.sessions.sound.refuses hrow hrevoked

end HumanSession
