import MuniRag.Cases.Blockers
import MuniRag.Cases.Mutation

/-!
# Which error leaves a failed mutation

The `catch` of `executeMutation` deletes the claim of the request and throws the
error again.  The deletion is one more statement of the same transaction: when
the server has refused an earlier statement it is refused too, and its error
leaves instead.  A run is transparent exactly when no `catch` of it deletes on
an aborted transaction or fails to delete.  In either case the request that
threw has changed nothing.
-/

namespace Cases

open Runs

variable {ι : Type} [DecidableEq ι] [Fintype ι] {service : Service} {mutations : ι → Mutation}
variable {world : World ι} {i : ι}

/-- What a request has thrown is what leaves it. -/
def World.Transparent (world : World ι) : Prop :=
  ∀ i thrown answer, (world.sessions i).thrown = some thrown →
    (world.sessions i).stage = .failed answer → answer = thrown

/-- The `catch` of a request meets an error of its own: the deletion runs on an
aborted transaction, or it fails. -/
def World.Masks (world : World ι) : Event ι → Prop
  | .proceed i => (world.sessions i).aborted = true ∧
      ∃ failure, (world.sessions i).stage = .releasing failure ∧ failure ≠ transactionAborted
  | .fault i message => ∃ failure, (world.sessions i).stage = .releasing failure ∧
      failure ≠ if (world.sessions i).aborted = true then transactionAborted else .server message
  | .catalog _ => False

/-- The step is no step of the request, or it leaves the database as it was. -/
def World.SparedBy (world : World ι) (next : World ι) (event : Event ι) (i : ι) : Prop :=
  event.request = some i → next.tables = world.tables ∧ next.keys = world.keys

/-- A creation throws what `create` answers, and the server has aborted its
transaction when one of its statements was refused there. -/
theorem create_thrown {refusal : Refusal} {input : CreateInput}
    (hstage : (world.sessions i).stage = .working) (hkind : (mutations i).operation = .create)
    (hinput : input = (mutations i).createInput service) (hfree : ¬ world.awaitsCase i input)
    (hrefused : create service.sql world.catalog world.tables input = .error refusal) :
    ((world.step service mutations (.proceed i)).sessions i).thrown = some refusal.thrown ∧
      ∀ constraint, createStatements service.sql world.catalog world.tables input =
          .error (.duplicate constraint) →
        ((world.step service mutations (.proceed i)).sessions i).aborted = true := by
  subst hinput
  have hwork : world.step service mutations (.proceed i) =
      world.createCase service (mutations i) i (world.sessions i) := by
    simp only [World.step, World.proceed, hstage, World.work]
    cases hbody : (mutations i).request.body with
    | create => rfl
    | update => simp [Mutation.operation, CaseRequest.operation, hbody] at hkind
  rw [create_eq] at hrefused
  rw [hwork, World.createCase]
  cases hstatements : createStatements service.sql world.catalog world.tables
      ((mutations i).createInput service) with
  | ok out => simp [hstatements, mapDuplicate] at hrefused
  | error raised =>
      rw [hstatements, mapDuplicate_error] at hrefused
      obtain rfl : raised.mapped = refusal := by simpa using hrefused
      simp only [hfree, if_false, put_self, Session.caught, true_and]
      intro constraint hraised
      obtain rfl : raised = .duplicate constraint := by simpa using hraised
      rfl

/-! ## The course of a request -/

/-- What a request has thrown is under way, or it has left. -/
structure Session.Told (session : Session) : Prop where
  caught : session.thrown ≠ none →
    (∃ failure, session.stage = .releasing failure) ∨ ∃ failure, session.stage = .failed failure
  releasing : ∀ failure, session.stage = .releasing failure → session.thrown = some failure

theorem told_opening : Session.opening.Told where
  caught h := absurd rfl h
  releasing _ hstage := by simp [Session.opening] at hstage

theorem told_of_quiet {session next : Session}
    (hthrown : next.thrown = session.thrown) (hquiet : session.thrown = none)
    (hstage : ∀ failure, next.stage ≠ .releasing failure) : next.Told where
  caught hsome := absurd (hthrown.trans hquiet) hsome
  releasing failure hfailure := absurd hfailure (hstage failure)

theorem told_caught (session : Session) (failure : Failure) (aborted : Bool) :
    (session.caught failure aborted).Told where
  caught _ := .inl ⟨failure, rfl⟩
  releasing _ h := by
    obtain rfl : failure = _ := by simpa [Session.caught] using h
    rfl

theorem told_refuse (session : Session) (failure : Failure) : (session.refuse failure).Told where
  caught _ := .inr ⟨failure, rfl⟩
  releasing _ h := by simp [Session.refuse, Session.close] at h

/-- Nothing was thrown before a stage that is no error. -/
theorem Session.Told.thrown_none {session : Session} (h : session.Told)
    (hreleasing : ∀ failure, session.stage ≠ .releasing failure)
    (hfailed : ∀ failure, session.stage ≠ .failed failure) : session.thrown = none := by
  by_contra hsome
  rcases h.caught hsome with ⟨failure, hstage⟩ | ⟨failure, hstage⟩
  · exact hreleasing failure hstage
  · exact hfailed failure hstage

omit [DecidableEq ι] [Fintype ι] in
/-- **What one move does with an error**: it catches one, it leaves the `catch`,
or it meets none. -/
theorem move_thrown {session : Session} (hmove : Session.Move service mutations world i session) :
    (∃ failure aborted, session = (world.sessions i).caught failure aborted) ∨
      (∃ failure, (world.sessions i).stage = .releasing failure ∧
        session = (world.sessions i).release failure) ∨
      session.thrown = (world.sessions i).thrown ∧
        (∀ failure, session.stage ≠ .releasing failure) ∧
        (∀ failure, (world.sessions i).stage ≠ .releasing failure) ∧
        ∀ failure, (world.sessions i).stage ≠ .failed failure := by
  cases hmove with
  | throws failure aborted hstage => exact .inl ⟨failure, aborted, rfl⟩
  | release failure hstage => exact .inr (.inl ⟨failure, hstage, rfl⟩)
  | begin hstage =>
      refine .inr (.inr ⟨rfl, ?_, by simp [hstage], by simp [hstage]⟩)
      cases (mutations i).operation <;> simp
  | aggregate hstage =>
      refine .inr (.inr ?_)
      rcases readAggregate_cases (world.sessions i) (world.tables.acknowledged?
          (mutations i).principal.tenantId (mutations i).principal.principalId
          ((mutations i).requestSha256 service)) with hread | ⟨_, _, _, _, _, _, hread⟩ <;>
        simp [hread, hstage]
  | read version hstage =>
      refine .inr (.inr ?_)
      have hold : (∀ failure, (world.sessions i).stage ≠ .releasing failure) ∧
          ∀ failure, (world.sessions i).stage ≠ .failed failure := by
        rcases hstage with hstage | hstage <;> simp [hstage]
      rcases readKey_cases service (world.sessions i) (mutations i) version with
          ⟨_, _, _, hread⟩ | ⟨_, _, _, _, hread⟩ | ⟨_, hread⟩ <;>
        simp [hread, hold, Session.refuse, Session.close]
  | respond record hstage =>
      refine .inr (.inr ⟨rfl, ?_, by simp [hstage], by simp [hstage]⟩)
      cases (mutations i).operation <;> simp
  | unread hstage =>
      refine .inr (.inr ?_)
      rcases hstage with ⟨hstage, _⟩ | ⟨tid, hstage, _⟩ <;> simp [hstage]
  | remove version hstage =>
      refine .inr (.inr ?_)
      rcases hstage with hstage | hstage <;> simp [hstage]
  | unremoved hstage =>
      refine .inr (.inr ?_)
      rcases hstage with ⟨hstage, _⟩ | ⟨tid, hstage, _⟩ <;> simp [hstage]
  | collide version hstage =>
      refine .inr (.inr ?_)
      simp [hstage, Session.refuse, Session.close]
  | forget hstage =>
      refine .inr (.inr ?_)
      simp [hstage, Session.refuse, Session.close]
  | _ =>
      refine .inr (.inr ?_)
      simp_all

theorem told_release {session : Session} {failure : Failure} :
    (session.release failure).Told := by
  rw [Session.release]
  split
  · exact told_refuse session transactionAborted
  · exact told_refuse session failure

omit [DecidableEq ι] [Fintype ι] in
theorem told_move {session : Session} (h : (world.sessions i).Told)
    (hmove : Session.Move service mutations world i session) : session.Told := by
  rcases move_thrown hmove with ⟨failure, aborted, rfl⟩ | ⟨failure, _, rfl⟩ |
      ⟨hthrown, hstage, hreleasing, hfailed⟩
  · exact told_caught _ failure aborted
  · exact told_release
  · exact told_of_quiet hthrown (h.thrown_none hreleasing hfailed) hstage

theorem told_fault {session : Session} (h : session.Told) (message : String) :
    (session.fault message).Told := by
  rw [Session.fault]
  split
  case h_1 | h_2 | h_3 | h_4 | h_5 => exact told_caught session (.server message) true
  case h_6 =>
      split
      · exact told_refuse session transactionAborted
      · exact told_refuse session (.server message)
  case h_7 | h_8 | h_9 | h_10 => exact h
  case h_11 => exact told_refuse session (.server message)

/-- **Step lemma.**  Whatever happens, the requests stay told. -/
theorem told_step (h : ∀ i, (world.sessions i).Told) (event : Event ι) (i : ι) :
    ((world.step service mutations event).sessions i).Told := by
  by_cases hother : event.request = some i
  swap
  · rw [step_other hother]
    exact h i
  obtain ⟨next, hnext, hchange⟩ := step_cases service mutations world event
  rw [hnext]
  cases hchange with
  | wait j => exact h i
  | catalog catalog => exact h i
  | move j session hmove =>
      obtain rfl : j = i := by simpa [Event.request] using hother
      rw [put_self]
      exact told_move (h j) hmove
  | fault j message =>
      obtain rfl : j = i := by simpa [Event.request] using hother
      rw [put_self]
      exact told_fault (h j) message
  | invalidate j version hstage hkey hfree =>
      obtain rfl : j = i := by simpa [Event.request] using hother
      rw [put_self]
      exact told_refuse _ _
  | commit j status body hstage =>
      obtain rfl : j = i := by simpa [Event.request] using hother
      have hquiet : (world.sessions j).thrown = none :=
        (h j).thrown_none (by simp [hstage]) (by simp [hstage])
      rw [World.commit, put_self]
      have hkept : ({ (world.sessions j).close (.done status body) with
          applied := (world.sessions j).applied || (world.sessions j).staged.isSome }).thrown =
            (world.sessions j).thrown := rfl
      exact told_of_quiet hkept hquiet fun failure h => by cases h

/-! ## What has thrown has changed nothing -/

/-- A step by which a request changes the database ends it without an error. -/
theorem spared_or_quiet (h : ∀ i, (world.sessions i).Told) (event : Event ι) (i : ι) :
    world.SparedBy (world.step service mutations event) event i ∨
      ((world.step service mutations event).sessions i).thrown = none ∧
        ((world.step service mutations event).sessions i).stage.ended = true := by
  by_cases hother : event.request = some i
  swap
  · exact .inl fun hsame => absurd hsame hother
  obtain ⟨next, hnext, hchange⟩ := step_cases service mutations world event
  rw [hnext]
  cases hchange with
  | wait j => exact .inl fun _ => ⟨rfl, rfl⟩
  | move j session hmove => exact .inl fun _ => ⟨rfl, rfl⟩
  | fault j message => exact .inl fun _ => ⟨rfl, rfl⟩
  | catalog catalog => exact .inl fun _ => ⟨rfl, rfl⟩
  | invalidate j version hstage hkey hfree =>
      obtain rfl : j = i := by simpa [Event.request] using hother
      have hquiet : (world.sessions j).thrown = none :=
        (h j).thrown_none (by simp [hstage]) (by simp [hstage])
      right
      rw [put_self]
      exact ⟨hquiet, rfl⟩
  | commit j status body hstage =>
      obtain rfl : j = i := by simpa [Event.request] using hother
      have hquiet : (world.sessions j).thrown = none :=
        (h j).thrown_none (by simp [hstage]) (by simp [hstage])
      right
      rw [World.commit, put_self]
      exact ⟨hquiet, rfl⟩

/-- An answer is the last word of a request. -/
theorem ended_run {events : List (Event ι)} (hended : (world.sessions i).stage.ended = true) :
    (run (World.step service mutations) world events).sessions i = world.sessions i := by
  induction events generalizing world with
  | nil => rfl
  | cons event events ih =>
      have hstays : (world.step service mutations event).sessions i = world.sessions i :=
        ended_stays event hended
      rw [run, ih (by rw [hstays]; exact hended), hstays]

/-- **A request that has thrown has changed nothing**, at any step of the run. -/
theorem thrown_spared (h : ∀ i, (world.sessions i).Told) {events : List (Event ι)}
    (hthrown : ((run (World.step service mutations) world events).sessions i).thrown ≠ none) :
    EachStep (World.step service mutations)
      (fun world event => world.SparedBy (world.step service mutations event) event i)
      world events := by
  induction events generalizing world with
  | nil => trivial
  | cons event events ih =>
      refine ⟨?_, ih (told_step h event) hthrown⟩
      rcases spared_or_quiet h event i with hspared | ⟨hquiet, hended⟩
      · exact hspared
      · have hlast : (run (World.step service mutations) (world.step service mutations event)
            events).sessions i = (world.step service mutations event).sessions i := ended_run hended
        rw [run, hlast] at hthrown
        exact absurd hquiet hthrown

/-! ## Transparent runs -/

/-- A world between the steps of a transparent run. -/
structure World.Candid (world : World ι) : Prop where
  told : ∀ i, (world.sessions i).Told
  transparent : world.Transparent

/-- What a step of request `i` makes of it decides whether the world stays
transparent. -/
theorem transparent_of_self {event : Event ι} (h : world.Transparent)
    (hself : ∀ i thrown answer, event.request = some i →
      ((world.step service mutations event).sessions i).thrown = some thrown →
      ((world.step service mutations event).sessions i).stage = .failed answer →
        answer = thrown) :
    (world.step service mutations event).Transparent := by
  intro i thrown answer hthrown hstage
  by_cases hother : event.request = some i
  · exact hself i thrown answer hother hthrown hstage
  · rw [step_other hother] at hthrown hstage
    exact h i thrown answer hthrown hstage

omit [DecidableEq ι] [Fintype ι] in
/-- A `catch` that deletes its claim throws what it has caught. -/
theorem release_candid {failure : Failure}
    (hkept : ¬ ((world.sessions i).aborted = true ∧ failure ≠ transactionAborted)) :
    ((world.sessions i).release failure).stage = .failed failure := by
  rw [Session.release]
  by_cases haborted : (world.sessions i).aborted = true
  · have hsame : failure = transactionAborted := by
      by_contra hother
      exact hkept ⟨haborted, hother⟩
    rw [if_pos haborted, hsame]
    rfl
  · rw [if_neg haborted]
    rfl

omit [DecidableEq ι] [Fintype ι] in
theorem fault_releasing {session : Session} {failure : Failure} {message : String}
    (hstage : session.stage = .releasing failure) :
    session.fault message = session.refuse
      (if session.aborted = true then transactionAborted else .server message) := by
  simp only [Session.fault, hstage]
  split <;> rfl

omit [DecidableEq ι] [Fintype ι] in
/-- An error that leaves without a `catch` was not thrown in the `try` block. -/
theorem told_fault_stage {session : Session} (h : session.Told) {message : String}
    {thrown answer : Failure} (hthrown : (session.fault message).thrown = some thrown)
    (hstage : (session.fault message).stage = .failed answer) :
    session.stage = .failed answer ∧ session.thrown = some thrown ∨
      session.stage = .releasing thrown ∧
        answer = if session.aborted = true then transactionAborted else .server message := by
  cases hold : session.stage with
  | failed failure =>
      simp only [Session.fault, hold] at hthrown hstage
      exact .inl ⟨hstage, hthrown⟩
  | releasing failure =>
      have hcaught := h.releasing failure hold
      right
      rw [fault_releasing hold] at hthrown hstage
      obtain rfl : failure = thrown := by simpa [Session.refuse, Session.close, hcaught] using hthrown
      exact ⟨rfl, by simpa [Session.refuse, Session.close] using hstage.symm⟩
  | _ =>
      have hquiet : session.thrown = none := h.thrown_none (by simp [hold]) (by simp [hold])
      simp [Session.fault, hold, Session.refuse, Session.close, Session.caught, hquiet]
        at hthrown hstage

/-- **Step lemma of transparent runs.** -/
theorem candid_step (h : world.Candid) {event : Event ι} (hgood : ¬ world.Masks event) :
    (world.step service mutations event).Candid := by
  refine ⟨told_step h.told event, transparent_of_self h.transparent ?_⟩
  intro i thrown answer hother hthrown hstage
  have htold : ((world.step service mutations event).sessions i).Told := told_step h.told event i
  obtain ⟨next, hnext, hchange⟩ := step_cases service mutations world event
  rw [hnext] at hthrown hstage htold
  cases hchange with
  | wait j => exact h.transparent i thrown answer hthrown hstage
  | catalog catalog => exact h.transparent i thrown answer hthrown hstage
  | move j session hmove =>
      obtain rfl : j = i := by simpa [Event.request] using hother
      rw [put_self] at hthrown hstage
      rcases move_thrown hmove with ⟨failure, aborted, rfl⟩ | ⟨failure, hreleasing, rfl⟩ |
          ⟨hsame, _, hreleasing, hfailed⟩
      · simp [Session.caught] at hstage
      · have hkept : ¬ ((world.sessions j).aborted = true ∧ failure ≠ transactionAborted) :=
          fun hmask => hgood ⟨hmask.1, failure, hreleasing, hmask.2⟩
        have hcaught : (world.sessions j).thrown = some failure :=
          (h.told j).releasing failure hreleasing
        have hsame : ((world.sessions j).release failure).thrown = some failure := by
          rw [Session.release]
          split <;> exact hcaught
        rw [release_candid hkept] at hstage
        rw [hsame] at hthrown
        simp_all
      · rw [hsame, (h.told j).thrown_none hreleasing hfailed] at hthrown
        simp at hthrown
  | fault j message =>
      obtain rfl : j = i := by simpa [Event.request] using hother
      rw [put_self] at hthrown hstage
      rcases told_fault_stage (h.told j) hthrown hstage with ⟨hold, hsame⟩ | ⟨hold, hanswer⟩
      · exact h.transparent j thrown answer hsame hold
      · by_contra hne
        exact hgood ⟨thrown, hold, fun hsame => hne (by rw [hanswer, hsame])⟩
  | invalidate j version hold hkey hfree =>
      obtain rfl : j = i := by simpa [Event.request] using hother
      have hquiet : (world.sessions j).thrown = none :=
        (h.told j).thrown_none (by simp [hold]) (by simp [hold])
      rw [put_self] at hthrown
      exact absurd hthrown (by simp [Session.refuse, Session.close, hquiet])
  | commit j status body hold =>
      obtain rfl : j = i := by simpa [Event.request] using hother
      rw [World.commit, put_self] at hstage
      simp [Session.close] at hstage

/-- A `catch` that meets an error of its own lets that one out. -/
theorem masked_step (h : world.Candid) {event : Event ι} (hbad : world.Masks event) :
    ¬ (world.step service mutations event).Transparent := by
  intro hlaw
  cases event with
  | catalog catalog => exact hbad
  | proceed i =>
      obtain ⟨haborted, failure, hstage, hne⟩ := hbad
      have hcaught : (world.sessions i).thrown = some failure :=
        (h.told i).releasing failure hstage
      have hout : (world.step service mutations (.proceed i)).sessions i =
          (world.sessions i).refuse transactionAborted := by
        simp [World.step, World.proceed, hstage, put_self, Session.release, haborted]
      have hsame := hlaw i failure transactionAborted (by rw [hout]; exact hcaught)
        (by rw [hout]; rfl)
      exact hne hsame.symm
  | fault i message =>
      obtain ⟨failure, hstage, hne⟩ := hbad
      have hcaught : (world.sessions i).thrown = some failure :=
        (h.told i).releasing failure hstage
      have hout : (world.step service mutations (.fault i message)).sessions i =
          (world.sessions i).refuse
            (if (world.sessions i).aborted = true then transactionAborted else .server message) := by
        rw [World.step, put_self, fault_releasing hstage]
      have hsame := hlaw i failure _ (by rw [hout]; exact hcaught) (by rw [hout]; rfl)
      exact hne hsame.symm

/-- **Error transparency.**  In any interleaving of any requests from a world in
which none has begun, whatever a request has thrown in its `try` block is what
leaves it exactly when no `catch` of the run meets an error of its own.  A
request that has thrown has changed nothing in any case. -/
theorem errors_transparent_iff (service : Service) (mutations : ι → Mutation) (catalog : Catalog)
    (tables : Tables) (keys : KeyName → Option KeyVersion) (nextTid : Nat)
    (events : List (Event ι)) :
    (Throughout (World.step service mutations) World.Transparent
        (.opening ι catalog tables keys nextTid) events ∧
      ∀ i, ((run (World.step service mutations) (.opening ι catalog tables keys nextTid)
          events).sessions i).thrown ≠ none →
        EachStep (World.step service mutations)
          (fun world event => world.SparedBy (world.step service mutations event) event i)
          (.opening ι catalog tables keys nextTid) events) ↔
      EachStep (World.step service mutations) (fun world event => ¬ world.Masks event)
        (.opening ι catalog tables keys nextTid) events := by
  have htold : ∀ i, ((World.opening ι catalog tables keys nextTid).sessions i).Told :=
    fun _ => told_opening
  have hopening : (World.opening ι catalog tables keys nextTid).Candid := by
    refine ⟨htold, fun i thrown answer hthrown => ?_⟩
    simp [World.opening, Session.opening] at hthrown
  have hkeep : ∀ (world : World ι) (event : Event ι), world.Candid → ¬ world.Masks event →
      (world.step service mutations event).Candid := fun _ _ h hgood => candid_step h hgood
  have hbreak : ∀ (world : World ι) (event : Event ι), world.Candid → ¬ ¬ world.Masks event →
      ¬ (world.step service mutations event).Transparent :=
    fun _ _ h hbad => masked_step h (not_not.mp hbad)
  rw [throughout_iff_eachStep hkeep (fun _ h => h.transparent) hbreak hopening events]
  exact and_iff_left fun i hthrown => thrown_spared htold hthrown

/-! ## A taken case key is an internal error -/

/-- The texts of a response one after the other, and taken apart again. -/
def sampleRender (response : Response) : JsString :=
  response.requestId ++ response.tenantId ++ response.credentialId ++ response.auditId

def sampleParse (body : JsString) : Option Response :=
  if body.length = 144 then
    some (responseFor
      { InMemory.newCase sampleSeed sampleCreate with tenantId := (body.drop 36).take 36 }
      (body.take 36) ((body.drop 72).take 36) (body.drop 108) 0)
  else none

def sampleService : Service where
  sql := sampleHost
  sha256 := id
  canonicalJson request := request.requestId
  hashText text := text.length
  accepts _ := true
  render := sampleRender
  parse := sampleParse
  idempotencyTtl := 86400

/-- A request to create the case `caso-1`, with its own key and identifiers. -/
def sampleCreation (n : Nat) : Mutation where
  request := {
    requestId := sampleUuid n, tenantId := sampleUuid 1, credentialId := sampleUuid 8
    body := .create (js "caso-1") (sampleUuid 2) (js "Guatemala") none none none }
  principal := {
    tenantId := 0x40008000000000000001, principalId := 0x40008000000000000005
    credentialId := sampleUuid 8 }
  requestId := sampleUuid n
  idempotencyKey := sampleUuid n
  pathCaseId := none
  claimedAt := 10
  now := 10
  auditId := sampleUuid (n + 1)
  caseId := sampleUuid (n + 2)
  eventId := sampleUuid (n + 3)
  entityId := sampleUuid (n + 4)

def sampleCreations (second : Bool) : Mutation :=
  if second = true then sampleCreation 40 else sampleCreation 20

/-- Two requests create a case under one key, one after the other. -/
def sampleSameKey : List (Event Bool) :=
  List.replicate 12 (.proceed false) ++ List.replicate 9 (.proceed true)

def sampleWorld : World Bool :=
  run (World.step sampleService sampleCreations)
    (.opening Bool sampleCatalog .empty (fun _ => none) 0) sampleSameKey

/-- A run that ends in a masked error was not transparent throughout. -/
theorem masked_of_end {events : List (Event ι)} {start last : World ι} {thrown answer : Failure}
    (hlast : last = run (World.step service mutations) start events)
    (hthrown : (last.sessions i).thrown = some thrown)
    (hstage : (last.sessions i).stage = .failed answer) (hne : answer ≠ thrown) :
    ¬ Throughout (World.step service mutations) World.Transparent start events := by
  intro hlaw
  have hend := throughout_end hlaw
  rw [← hlast] at hend
  exact hne (hend i thrown answer hthrown hstage)

/-- The second request throws a conflict, which is answered by 409; it leaves
with the error of its `catch`, which is answered by 500. -/
theorem conflict_masked :
    (sampleWorld.sessions true).thrown.map normalizeError = some (409, "case_conflict") ∧
      normalizeError transactionAborted = (500, "internal_error") ∧
      (sampleWorld.sessions true).stage = .failed transactionAborted ∧
      ¬ Throughout (World.step sampleService sampleCreations) World.Transparent
        (.opening Bool sampleCatalog .empty (fun _ => none) 0) sampleSameKey := by
  have hthrown : (sampleWorld.sessions true).thrown = some (Failure.caseError
      { code := "case_conflict", message := "Case key already exists" }) := by decide +kernel
  have hstage : (sampleWorld.sessions true).stage = .failed transactionAborted := by
    decide +kernel
  refine ⟨by rw [hthrown]; rfl, rfl, hstage, ?_⟩
  have hlast : sampleWorld = run (World.step sampleService sampleCreations)
      (.opening Bool sampleCatalog .empty (fun _ => none) 0) sampleSameKey := rfl
  exact masked_of_end hlast hthrown hstage (by decide)

end Cases
