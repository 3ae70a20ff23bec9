import MuniRag.HumanSession.Database

/-!
# What the constraints keep

Every row meets the checks of its table, and no two sessions share an id or a
token.  Each function keeps this, whatever it is given: a call that would break
it fails.
-/

namespace HumanSession

open Results

/-- The constraints of the tables. -/
structure Sound (host : Host) (db : Database) : Prop where
  logins : ∀ row ∈ db.loginTransactions, row.meetsChecks host
  sessions : ∀ row ∈ db.sessions, row.meetsChecks
  ids : (db.sessions.map (·.id)).Nodup
  tokens : (db.sessions.map (·.sessionTokenSha256)).Nodup

variable {host : Host} {db after : Database} {clock : Instant} {directory : Directory}

theorem sound_opening (host : Host) : Sound host .opening where
  logins := fun _ hrow => nomatch hrow
  sessions := fun _ hrow => nomatch hrow
  ids := List.nodup_nil
  tokens := List.nodup_nil

/-- Two stored sessions with one id are one. -/
theorem Sound.eq_of_id (h : Sound host db) {row other : SessionRow} (hrow : row ∈ db.sessions)
    (hother : other ∈ db.sessions) (hid : row.id = other.id) : row = other :=
  List.inj_on_of_nodup_map h.ids hrow hother hid

theorem Sound.eq_of_token (h : Sound host db) {row other : SessionRow} (hrow : row ∈ db.sessions)
    (hother : other ∈ db.sessions)
    (htoken : row.sessionTokenSha256 = other.sessionTokenSha256) : row = other :=
  List.inj_on_of_nodup_map h.tokens hrow hother htoken

theorem Sound.session?_eq (h : Sound host db) {row : SessionRow} (hrow : row ∈ db.sessions) :
    db.session? row.sessionTokenSha256 = some row := by
  cases hfind : db.session? row.sessionTokenSha256 with
  | none =>
      have hnone := List.find?_eq_none.mp hfind row hrow
      simp at hnone
  | some found =>
      obtain ⟨hfound, htoken⟩ := Database.session?_some hfind
      rw [h.eq_of_token hfound hrow htoken]

theorem Sound.insertSession (h : Sound host db) {row : SessionRow}
    (hinsert : db.insertSession row = .ok after) : Sound host after := by
  obtain ⟨hchecks, hid, htoken, rfl⟩ := Database.insertSession_ok.mp hinsert
  refine ⟨h.logins, ?_, Table.nodup_map_append h.ids hid, Table.nodup_map_append h.tokens htoken⟩
  intro other hother
  rcases List.mem_append.mp hother with hold | hnew
  · exact h.sessions other hold
  · obtain rfl := List.mem_singleton.mp hnew
    exact hchecks

theorem Sound.updateSessions (h : Sound host db) {p : SessionRow → Prop} [DecidablePred p]
    {f : SessionRow → SessionRow} (hupdate : db.updateSessions p f = .ok after)
    (hid : ∀ row, (f row).id = row.id)
    (htoken : ∀ row, (f row).sessionTokenSha256 = row.sessionTokenSha256) : Sound host after := by
  obtain ⟨hchecks, rfl⟩ := Database.updateSessions_ok.mp hupdate
  refine ⟨h.logins, ?_, ?_, ?_⟩
  · intro row hrow
    rcases Table.mem_updateWhere.mp hrow with ⟨old, hold, hp, rfl⟩ | ⟨hold, _⟩
    · exact hchecks old hold hp
    · exact h.sessions row hold
  · have hsame : (Table.updateWhere p f db.sessions).map (·.id) = db.sessions.map (·.id) :=
      Table.map_updateWhere fun row _ _ => hid row
    rw [hsame]
    exact h.ids
  · have hsame : (Table.updateWhere p f db.sessions).map (·.sessionTokenSha256) =
        db.sessions.map (·.sessionTokenSha256) :=
      Table.map_updateWhere fun row _ _ => htoken row
    rw [hsame]
    exact h.tokens

/-! ## One lemma for each function -/

theorem Sound.createLogin (h : Sound host db) {id : Uuid} {input : LoginInput}
    {out : Database × Uuid}
    (hcall : db.createHumanLoginTransaction host clock id input = .ok out) :
    Sound host out.1 := by
  obtain ⟨new, hchecks, _, _, _, _, _, hout⟩ := Database.createHumanLoginTransaction_ok hcall
  rw [hout]
  refine ⟨fun row hrow => ?_, h.sessions, h.ids, h.tokens⟩
  rcases List.mem_append.mp hrow with hold | hnew
  · exact h.logins row (List.mem_filter.mp hold).1
  · obtain rfl := List.mem_singleton.mp hnew
    exact hchecks

theorem Sound.consume (h : Sound host db) {input : ConsumeInput}
    {out : Database × List LoginTransaction}
    (hcall : db.consumeHumanLoginTransaction host clock input = .ok out) : Sound host out.1 := by
  obtain ⟨hchecks, hout, _⟩ := Database.consumeHumanLoginTransaction_ok.mp hcall
  rw [hout]
  refine ⟨fun row hrow => ?_, h.sessions, h.ids, h.tokens⟩
  rcases Table.mem_updateWhere.mp hrow with ⟨old, hold, hp, rfl⟩ | ⟨hold, _⟩
  · exact hchecks old hold hp
  · exact h.logins row hold

theorem Sound.claim (h : Sound host db) (clock : Instant) (providerId : JsString)
    (codeSha256 : Bytes) (expiresAt : Instant) :
    Sound host (db.claimHumanAuthorizationCode clock providerId codeSha256 expiresAt).1 := by
  rcases db.claimHumanAuthorizationCode_cases clock providerId codeSha256 expiresAt with
    hout | hout | ⟨_, _, hout⟩
  · rw [hout]
    exact h
  · rw [hout]
    exact ⟨h.logins, h.sessions, h.ids, h.tokens⟩
  · rw [hout]
    exact ⟨h.logins, h.sessions, h.ids, h.tokens⟩

theorem Sound.create (h : Sound host db) {row : SessionRow} {out : Database × Bool}
    (hcall : db.createHumanSession directory clock row = .ok out) : Sound host out.1 := by
  rcases Database.createHumanSession_ok hcall with rfl | ⟨_, _, hinsert⟩
  · exact h
  · exact h.insertSession hinsert

theorem Sound.rotate (h : Sound host db) {input : RotateInput} {out : Database × Bool}
    (hcall : db.rotateHumanSession clock input = .ok out) : Sound host out.1 := by
  rcases Database.rotateHumanSession_ok hcall with rfl | ⟨_, _, _, _, _, hinsert, hupdate⟩
  · exact h
  · exact (h.insertSession hinsert).updateSessions hupdate (fun _ => rfl) fun _ => rfl

theorem Sound.revoke (h : Sound host db) {token : Bytes} {revokedAt : Instant}
    {out : Database × Option (SessionRow × List String)}
    (hcall : db.revokeHumanSession directory clock token revokedAt = .ok out) :
    Sound host out.1 :=
  h.updateSessions (Database.revokeHumanSession_ok hcall).1 (fun _ => rfl) fun _ => rfl

end HumanSession
