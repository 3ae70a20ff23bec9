import MuniRag.Cases.ErrorTransparency
import MuniRag.Cases.Locks

/-!
# A request that waits for itself

A stored response that does not pass the checks of a replay is deleted in a
transaction of its own, on a second connection, while the first transaction of
the request is still open.  If that one has selected the row of the key
`FOR UPDATE`, the deletion waits for it, and it waits for the deletion.  The
response of an aggregate is replayed without a lock on the row, so only the
response of a row does it.
-/

namespace Cases

open Runs

variable {ι : Type} [DecidableEq ι] [Fintype ι] {service : Service} {mutations : ι → Mutation}
variable {world : World ι} {i : ι}

/-- The deletion of a request waits for a row that the request itself has
locked. -/
def World.SelfWaits (service : Service) (mutations : ι → Mutation) (world : World ι) (i : ι) :
    Prop :=
  (world.sessions i).stage = .invalidating ∧
    ∃ version ∈ world.keys ((mutations i).keyName service),
      (world.sessions i).rowLock = some version.tid

/-- A request that has locked the row of its key rejects the stored response. -/
def World.Rejects (service : Service) (mutations : ι → Mutation) (world : World ι) :
    Event ι → Prop
  | .proceed i => (world.sessions i).rowLock ≠ none ∧ ∃ status body auditId,
      (world.sessions i).stage = .replaying status body auditId ∧
        (mutations i).recognizes service body auditId = false
  | .fault .. | .catalog _ => False

/-- Between the steps of a run in which nobody waits for itself. -/
structure World.Unentangled (service : Service) (mutations : ι → Mutation) (world : World ι) :
    Prop where
  exclusive : world.Exclusive service mutations
  unlocked : ∀ i, (world.sessions i).stage = .invalidating → (world.sessions i).rowLock = none

omit [DecidableEq ι] [Fintype ι] in
/-- Only a rejected response is invalidated. -/
theorem move_invalidating {session : Session}
    (hmove : Session.Move service mutations world i session)
    (hstage : session.stage = .invalidating) :
    session = { world.sessions i with stage := .invalidating } ∧ ∃ status body auditId,
      (world.sessions i).stage = .replaying status body auditId ∧
        (mutations i).recognizes service body auditId = false := by
  cases hmove with
  | reject status body auditId hreplaying hbody => exact ⟨rfl, status, body, auditId, hreplaying, hbody⟩
  | begin => cases hkind : (mutations i).operation <;> simp [hkind] at hstage
  | respond => cases hkind : (mutations i).operation <;> simp [hkind] at hstage
  | aggregate =>
      rcases readAggregate_cases (world.sessions i) (world.tables.acknowledged?
          (mutations i).principal.tenantId (mutations i).principal.principalId
          ((mutations i).requestSha256 service)) with hread | ⟨_, _, _, _, _, _, hread⟩ <;>
        simp [hread] at hstage
  | read version =>
      rcases readKey_cases service (world.sessions i) (mutations i) version with
          ⟨_, _, _, hread⟩ | ⟨_, _, _, _, hread⟩ | ⟨_, hread⟩ <;>
        simp [hread, Session.refuse, Session.close] at hstage
  | release failure =>
      rw [Session.release] at hstage
      split at hstage <;> simp [Session.refuse, Session.close] at hstage
  | _ => simp [Session.refuse, Session.close, Session.caught] at hstage

omit [DecidableEq ι] [Fintype ι] in
theorem fault_invalidating {session : Session} {message : String} :
    (session.fault message).stage ≠ .invalidating := by
  rw [Session.fault]
  cases hstage : session.stage with
  | releasing failure =>
      simp only
      split <;> simp [Session.refuse, Session.close]
  | _ => simp [Session.refuse, Session.close, Session.caught, hstage]

/-- **Step lemma.**  A step that rejects no response of a locked row. -/
theorem unentangled_step (h : world.Unentangled service mutations) {event : Event ι}
    (hgood : ¬ world.Rejects service mutations event) :
    (world.step service mutations event).Unentangled service mutations := by
  refine ⟨exclusive_step h.exclusive event, fun i hstage => ?_⟩
  by_cases hother : event.request = some i
  swap
  · rw [step_other hother] at hstage ⊢
    exact h.unlocked i hstage
  obtain ⟨next, hnext, hchange⟩ := step_cases service mutations world event
  rw [hnext] at hstage ⊢
  cases hchange with
  | wait j => exact h.unlocked i hstage
  | catalog catalog => exact h.unlocked i hstage
  | move j session hmove =>
      obtain rfl : j = i := by simpa [Event.request] using hother
      rw [put_self] at hstage ⊢
      obtain ⟨rfl, status, body, auditId, hreplaying, hbody⟩ := move_invalidating hmove hstage
      by_contra hlock
      exact hgood ⟨hlock, status, body, auditId, hreplaying, hbody⟩
  | fault j message =>
      obtain rfl : j = i := by simpa [Event.request] using hother
      rw [put_self] at hstage
      exact absurd hstage fault_invalidating
  | invalidate j version hold hkey hfree =>
      obtain rfl : j = i := by simpa [Event.request] using hother
      rw [put_self] at hstage
      simp [Session.refuse, Session.close] at hstage
  | commit j status body hold =>
      obtain rfl : j = i := by simpa [Event.request] using hother
      rw [World.commit, put_self] at hstage
      simp [Session.close] at hstage

/-- A rejected response of a locked row is waited for. -/
theorem self_waits_step (h : world.Unentangled service mutations) {event : Event ι}
    (hbad : world.Rejects service mutations event) :
    ∃ i, (world.step service mutations event).SelfWaits service mutations i := by
  cases event with
  | fault | catalog => exact hbad.elim
  | proceed i =>
      obtain ⟨hlock, status, body, auditId, hstage, hbody⟩ := hbad
      obtain ⟨tid, htid⟩ := Option.ne_none_iff_exists'.mp hlock
      obtain ⟨version, hversion, rfl⟩ := h.exclusive.current i tid htid
      have hstep : world.step service mutations (.proceed i) =
          world.put i { world.sessions i with stage := .invalidating } := by
        simp [World.step, World.proceed, hstage, Session.replay, hbody]
      rw [hstep]
      refine ⟨i, ?_, version, hversion, ?_⟩
      · rw [put_self]
      · rw [put_self]
        exact htid

/-- **No request waits for itself** throughout a run exactly when no request of
the run rejects the response of a row that it has locked. -/
theorem self_waits_iff (service : Service) (mutations : ι → Mutation) (catalog : Catalog)
    (tables : Tables) (keys : KeyName → Option KeyVersion) (nextTid : Nat)
    (events : List (Event ι)) :
    Throughout (World.step service mutations)
        (fun world => ∀ i, ¬ world.SelfWaits service mutations i)
        (.opening ι catalog tables keys nextTid) events ↔
      EachStep (World.step service mutations)
        (fun world event => ¬ world.Rejects service mutations event)
        (.opening ι catalog tables keys nextTid) events := by
  have hopening : (World.opening ι catalog tables keys nextTid).Unentangled service mutations :=
    ⟨exclusive_opening catalog tables keys nextTid, fun _ _ => rfl⟩
  have hlaw : ∀ world : World ι, world.Unentangled service mutations →
      ∀ i, ¬ world.SelfWaits service mutations i := by
    intro world h i hwaits
    obtain ⟨hstage, version, _, hlock⟩ := hwaits
    rw [h.unlocked i hstage] at hlock
    cases hlock
  have hbreak : ∀ (world : World ι) (event : Event ι), world.Unentangled service mutations →
      ¬ ¬ world.Rejects service mutations event →
        ¬ ∀ i, ¬ (world.step service mutations event).SelfWaits service mutations i := by
    intro world event h hbad hnone
    obtain ⟨i, hwaits⟩ := self_waits_step h (not_not.mp hbad)
    exact hnone i hwaits
  exact throughout_iff_eachStep (fun _ _ h hgood => unentangled_step h hgood) hlaw hbreak
    hopening events

/-- **The wait does not end** by any step of any request: only a fault of the
server ends it. -/
theorem self_waits_stays (h : world.Exclusive service mutations)
    (hwaits : world.SelfWaits service mutations i) (j : ι) :
    (world.step service mutations (.proceed j)).SelfWaits service mutations i := by
  obtain ⟨hstage, version, hversion, hlock⟩ := hwaits
  by_cases hj : j = i
  · subst hj
    have hstuck : world.step service mutations (.proceed j) = world := by
      have hkey : world.keys ((mutations j).keyName service) = some version := hversion
      have hheld : ∃ k, (world.sessions k).rowLock = some version.tid := ⟨j, hlock⟩
      simp only [World.step, World.proceed, hstage, World.invalidate, hkey, if_pos hheld]
    rw [hstuck]
    exact ⟨hstage, version, hversion, hlock⟩
  · have hother : (Event.proceed j).request ≠ some i := by simpa [Event.request] using hj
    have hkeys : (world.step service mutations (.proceed j)).keys ((mutations i).keyName service) =
        world.keys ((mutations i).keyName service) := by
      obtain ⟨next, hnext, hchange⟩ := step_cases service mutations world (.proceed j)
      rw [hnext]
      cases hchange with
      | wait _ => rfl
      | move _ session hmove => rfl
      | invalidate _ other hinvalidating hkey hfree =>
          exact Function.update_of_ne (unlocked_key_ne h hkey hfree hlock) ..
      | commit _ status body hcommitting => exact commit_locked h (Ne.symm hj) hlock status body
    refine ⟨?_, version, ?_, ?_⟩
    · rw [step_other hother, hstage]
    · rw [hkeys]
      exact hversion
    · rw [step_other hother, hlock]

/-! ## A damaged response -/

def sampleUpdate : Mutation where
  request := {
    requestId := sampleUuid 20, tenantId := sampleUuid 1, credentialId := sampleUuid 8
    body := .update (sampleUuid 3) 1 (.appendNote (js "nota")) }
  principal := {
    tenantId := 0x40008000000000000001, principalId := 0x40008000000000000005
    credentialId := sampleUuid 8 }
  requestId := sampleUuid 20
  idempotencyKey := sampleUuid 20
  pathCaseId := some (sampleUuid 3)
  claimedAt := 10
  now := 10
  auditId := sampleUuid 21
  caseId := sampleUuid 22
  eventId := sampleUuid 23
  entityId := sampleUuid 24

/-- A completed row of the key of the request; its body is no response. -/
def sampleDamaged (name : KeyName) : Option KeyVersion :=
  if name = sampleUpdate.keyName sampleService then
    some { tid := 0, row := {
      requestSha256 := sampleUpdate.requestSha256 sampleService
      completion := some {
        status := 200, body := js "null", bodySha256 := js "null", auditId := sampleUuid 30
        completedAt := 5 }
      createdAt := 5, expiresAt := 86405 } }
  else none

/-- A run that ends in a request waiting for itself. -/
theorem entangled_of_end (j : ι) {events : List (Event ι)} {start : World ι}
    (hend : (run (World.step service mutations) start events).SelfWaits service mutations j) :
    ¬ Throughout (World.step service mutations)
      (fun world => ∀ i, ¬ world.SelfWaits service mutations i) start events :=
  fun hlaw => throughout_end hlaw j hend

theorem damaged_response_self_waits :
    ¬ Throughout (World.step sampleService fun _ : Unit => sampleUpdate)
      (fun world => ∀ i, ¬ world.SelfWaits sampleService (fun _ => sampleUpdate) i)
      (.opening Unit sampleCatalog .empty sampleDamaged 1)
      (List.replicate 3 (.proceed ())) := by
  refine entangled_of_end () ?_
  unfold World.SelfWaits
  decide +kernel

end Cases
