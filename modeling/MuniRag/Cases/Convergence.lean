import MuniRag.Cases.Bindings
import MuniRag.Cases.ExactlyOnce

/-!
# Creations converge on one case

Create requests with one tenant, one principal and one canonical request meet
under an advisory lock, which is held until the transaction ends; the first that
inserts the case seals it with its response in the same transaction.  So at most
one case is ever created for them, every request that returns has the sealed
response, and nothing that happens to the case later changes it.
-/

namespace Cases

open Locks Results Runs

/-! ## The requests for one case -/

/-- What makes create requests the same. -/
structure Creation where
  tenantId : Uuid
  principalId : Uuid
  requestSha256 : JsString
  deriving DecidableEq, Repr

/-- The case was created for these requests. -/
def Creation.owns (creation : Creation) (binding : Binding) : Bool :=
  binding.tenantId = creation.tenantId && binding.createdByPrincipalId = creation.principalId &&
    binding.createRequestSha256 = creation.requestSha256

theorem owns_iff {creation : Creation} {binding : Binding} :
    creation.owns binding = true ↔ binding.tenantId = creation.tenantId ∧
      binding.createdByPrincipalId = creation.principalId ∧
      binding.createRequestSha256 = creation.requestSha256 := by
  simp [Creation.owns, and_assoc]

def Mutation.creation (service : Service) (mutation : Mutation) : Creation where
  tenantId := mutation.principal.tenantId
  principalId := mutation.principal.principalId
  requestSha256 := mutation.requestSha256 service

/-- The request is one of those for the case. -/
def Creation.Asks (service : Service) (creation : Creation) (mutation : Mutation) : Prop :=
  mutation.operation = .create ∧ mutation.creation service = creation

instance (service : Service) (creation : Creation) (mutation : Mutation) :
    Decidable (creation.Asks service mutation) := by
  unfold Creation.Asks
  infer_instance

/-- The request names the tenant of its principal, as `requireRequestIdentity`
has checked, and the principal has a UUID. -/
structure Mutation.Identified (mutation : Mutation) : Prop where
  tenant : uuidValue mutation.request.tenantId = some mutation.principal.tenantId
  principal : mutation.principal.principalId < 16 ^ 32

/-- How many cases there are for these requests. -/
def Creation.count (creation : Creation) (tables : Tables) : Nat :=
  tables.allBindings.countP creation.owns

/-- A case for these requests is sealed with a response. -/
def Creation.Acknowledges (creation : Creation) (tables : Tables) (body : JsString) : Prop :=
  ∃ binding ∈ tables.allBindings, creation.owns binding = true ∧
    binding.initialResponseBody = some body

/-! ## Growth -/

/-- What a commit makes of the bindings: nothing, or one more. -/
inductive Tables.Growth (now next : Tables) : Option Binding → Prop
  | same (h : ∀ key, next.bindings key = now.bindings key) : Growth now next none
  | add (binding : Binding) (hfree : now.bindings binding.key = [])
      (h : ∀ key, next.bindings key = if key = binding.key then [binding] else now.bindings key) :
      Growth now next (some binding)

variable {creation : Creation} {now next : Tables} {added : Option Binding}

theorem growth_perm (h : now.Growth next added) :
    next.allBindings.Perm (added.toList ++ now.allBindings) := by
  cases h with
  | same h => exact allBindings_perm h
  | add binding hfree h => exact allBindings_add hfree h

theorem growth_other (h : now.Growth next added) {key : CaseKey}
    (hother : ∀ binding ∈ added, binding.key ≠ key) : next.bindings key = now.bindings key := by
  cases h with
  | same h => exact h key
  | add binding hfree h =>
      have hne : key ≠ binding.key := fun hsame => hother binding rfl hsame.symm
      rw [h, if_neg hne]

theorem growth_keyed (h : now.Growth next added) (hkeyed : now.Keyed) : next.Keyed := by
  intro key
  cases h with
  | same h => exact (h key).symm ▸ hkeyed key
  | add binding hfree h =>
      rw [h]
      split
      · simp
      · exact hkeyed key

theorem growth_acknowledges (h : now.Growth next added) {body : JsString}
    (hbody : creation.Acknowledges now body) : creation.Acknowledges next body := by
  obtain ⟨binding, hbinding, howns, hresponse⟩ := hbody
  exact ⟨binding, (growth_perm h).mem_iff.mpr (List.mem_append_right _ hbinding), howns, hresponse⟩

theorem growth_count (h : now.Growth next added) :
    creation.count next = creation.count now + added.toList.countP creation.owns := by
  rw [Creation.count, (growth_perm h).countP_eq, List.countP_append, Nat.add_comm]
  rfl

/-- A bound key is not the key of an added binding. -/
theorem growth_bound (h : now.Growth next added) {key : CaseKey} (hbound : now.bindings key ≠ []) :
    next.bindings key = now.bindings key := by
  refine growth_other h fun binding hbinding hsame => ?_
  cases h with
  | same h => cases hbinding
  | add other hfree h =>
      obtain rfl : other = binding := by simpa using hbinding
      exact hbound (hsame ▸ hfree)

/-- Two acknowledged responses of one case are one. -/
theorem acknowledges_unique (hone : creation.count now ≤ 1) {body other : JsString}
    (hbody : creation.Acknowledges now body) (hother : creation.Acknowledges now other) :
    body = other := by
  obtain ⟨binding, hbinding, howns, hresponse⟩ := hbody
  obtain ⟨second, hsecond, howns₂, hresponse₂⟩ := hother
  rw [Creation.count, List.countP_eq_length_filter] at hone
  have hmem : binding ∈ now.allBindings.filter creation.owns := List.mem_filter.mpr ⟨hbinding, howns⟩
  have hmem₂ : second ∈ now.allBindings.filter creation.owns := List.mem_filter.mpr ⟨hsecond, howns₂⟩
  obtain ⟨only, honly⟩ := List.length_eq_one_iff.mp
    (le_antisymm hone (List.length_pos_of_mem hmem))
  rw [honly, List.mem_singleton] at hmem hmem₂
  rw [hmem] at hresponse
  rw [hmem₂, hresponse] at hresponse₂
  exact Option.some.inj hresponse₂

theorem count_pos_of_acknowledges {body : JsString} (h : creation.Acknowledges now body) :
    0 < creation.count now := by
  obtain ⟨binding, hbinding, howns, _⟩ := h
  exact List.countP_pos_iff.mpr ⟨binding, hbinding, howns⟩

/-! ## The course of a request -/

section Course

variable (service : Service) (creation : Creation) (mutation : Mutation) (now : Tables)

/-- The request answers what is acknowledged for the creation. -/
def Mutation.Repeats (status : Nat) (body : JsString) : Prop :=
  creation.Asks service mutation → status = 201 ∧ creation.Acknowledges now body

/-- A transaction that has neither claimed a key nor written a case. -/
def Session.Blank (session : Session) : Prop := session.staged = none ∧ session.inserted = none

/-- The transaction has rewritten a case without touching its binding. -/
def Session.Rewrites (session : Session) : Prop :=
  ∃ key own, session.staged = some (key, own) ∧ own.bindings key = now.bindings key ∧
    now.bindings key ≠ []

/-- The transaction has inserted a case of its own creation, with this response,
under a key that is still free; no other case of that creation is there. -/
def Session.Drafts (session : Session) (response : Option JsString) : Prop :=
  session.advisory = some (mutation.lockKey service) ∧
    ∃ own binding, session.staged = some (mutation.newKey, own) ∧
      own.bindings mutation.newKey = [binding] ∧ binding.key = mutation.newKey ∧
      (mutation.creation service).owns binding = true ∧
      binding.initialResponseBody = response ∧ now.bindings mutation.newKey = [] ∧
      (creation.Asks service mutation → creation.count now = 0)

/-- What holds of a request at each of its stages, `now` being the committed
tables. -/
def Session.Conforms (session : Session) : Prop :=
  let locked := session.advisory = some (mutation.lockKey service)
  let claimed := session.inserted = some (mutation.claimRow service)
  match mutation.operation, session.stage with
  | _, .invalidating | _, .failed _ => session.staged = none
  | _, .releasing _ => True
  | .update, .acting _ key => session.staged = none ∧ now.bindings key ≠ []
  | .update, .responding _ | .update, .auditing _ | .update, .completing _ => session.Rewrites now
  | .update, .committing .. => session.staged = none ∨ session.Rewrites now
  | .update, .locking | .update, .locked | .update, .sealing .. => False
  | .update, _ => session.staged = none
  | .create, .start | .create, .locking => session.Blank
  | .create, .locked | .create, .claiming | .create, .selecting _ | .create, .clearing
  | .create, .deleting _ | .create, .inserting => locked ∧ session.Blank
  | .create, .working => locked ∧ claimed ∧ session.staged = none
  | .create, .responding record | .create, .sealing record _ =>
      claimed ∧ record.caseId = uuidText mutation.newKey.2 ∧
        session.Drafts service creation mutation now none
  | .create, .auditing body | .create, .completing body =>
      claimed ∧ session.Drafts service creation mutation now (some body)
  | .create, .committing status body =>
      session.Blank ∧ mutation.Repeats service creation now status body ∨
        status = 201 ∧ session.Drafts service creation mutation now (some body) ∧
          ∃ completion, session.inserted =
              some { mutation.claimRow service with completion := some completion } ∧
            completion.status = 201 ∧ completion.body = body
  | .create, .replaying status body _ =>
      session.Blank ∧ mutation.Repeats service creation now status body
  | .create, .done status body =>
      session.staged = none ∧ mutation.Repeats service creation now status body
  | .create, .acting .. => False

end Course

/-- The transaction has a case row of its own, which it may still commit. -/
def Session.isDrafting (session : Session) : Bool :=
  session.staged.isSome && match session.stage with
    | .releasing _ => false
    | _ => true

variable {ι : Type} [DecidableEq ι] [Fintype ι]

/-- The key under which a request is about to insert a case. -/
def World.draftKey (mutations : ι → Mutation) (world : World ι) (i : ι) : Option CaseKey :=
  if (mutations i).operation = .create ∧ (world.sessions i).isDrafting = true then
    some (mutations i).newKey
  else none

/-- **Invariant of the runs.** -/
structure World.Converging (service : Service) (creation : Creation) (mutations : ι → Mutation)
    (world : World ι) : Prop where
  exclusive : world.Exclusive service mutations
  keyed : world.tables.Keyed
  once : creation.count world.tables ≤ 1
  rows : ∀ name version completion, world.keys name = some version → name.operation = .create →
    name.tenantId = creation.tenantId → name.principalId = creation.principalId →
    version.row.requestSha256 = creation.requestSha256 →
    version.row.completion = some completion →
      completion.status = 201 ∧ creation.Acknowledges world.tables completion.body
  apart : Sole (world.draftKey mutations)
  conforms : ∀ i, (world.sessions i).Conforms service creation (mutations i) world.tables

variable {service : Service} {mutations : ι → Mutation} {world : World ι} {i : ι}
variable {mutation : Mutation} {session : Session}

theorem repeats_growth (h : now.Growth next added) {status : Nat} {body : JsString}
    (hrepeats : mutation.Repeats service creation now status body) :
    mutation.Repeats service creation next status body :=
  fun hasks => ⟨(hrepeats hasks).1, growth_acknowledges h (hrepeats hasks).2⟩

theorem rewrites_growth (h : now.Growth next added) (hrewrites : session.Rewrites now) :
    session.Rewrites next := by
  obtain ⟨key, own, hstaged, hsame, hbound⟩ := hrewrites
  have hkept := growth_bound h hbound
  exact ⟨key, own, hstaged, by rw [hsame, hkept], by rwa [hkept]⟩

theorem drafts_growth (h : now.Growth next added) {response : Option JsString}
    (hfree : ∀ binding ∈ added, binding.key ≠ mutation.newKey ∧
      (creation.Asks service mutation → creation.owns binding = false))
    (hdrafts : session.Drafts service creation mutation now response) :
    session.Drafts service creation mutation next response := by
  obtain ⟨hlock, own, binding, hstaged, hown, hkey, howns, hresponse, hunbound, hnone⟩ := hdrafts
  refine ⟨hlock, own, binding, hstaged, hown, hkey, howns, hresponse, ?_, fun hasks => ?_⟩
  · rw [growth_other h fun added hadded => (hfree added hadded).1, hunbound]
  · rw [growth_count h, hnone hasks]
    cases added with
    | none => rfl
    | some added => simp [(hfree added rfl).2 hasks]

/-- **Frame.**  A commit of another request leaves a request on its course. -/
theorem conforms_growth (h : now.Growth next added)
    (hfree : mutation.operation = .create → session.isDrafting = true →
      ∀ binding ∈ added, binding.key ≠ mutation.newKey ∧
        (creation.Asks service mutation → creation.owns binding = false))
    (hconforms : session.Conforms service creation mutation now) :
    session.Conforms service creation mutation next := by
  have hdrafting : ∀ response, session.Drafts service creation mutation now response →
      (∀ failure, session.stage ≠ .releasing failure) → session.isDrafting = true := by
    intro response hdrafts hstage
    obtain ⟨_, own, _, hstaged, _⟩ := hdrafts
    cases hold : session.stage with
    | releasing failure => exact absurd hold (hstage failure)
    | _ => simp [Session.isDrafting, hold, hstaged]
  cases hkind : mutation.operation with
  | update =>
      cases hstage : session.stage with
      | acting record key =>
          simp only [Session.Conforms, hkind, hstage] at hconforms ⊢
          exact ⟨hconforms.1, by rw [growth_bound h hconforms.2]; exact hconforms.2⟩
      | responding | auditing | completing =>
          simp only [Session.Conforms, hkind, hstage] at hconforms ⊢
          exact rewrites_growth h hconforms
      | committing =>
          simp only [Session.Conforms, hkind, hstage] at hconforms ⊢
          exact hconforms.imp id (rewrites_growth h)
      | locking | locked | sealing => simp only [Session.Conforms, hkind, hstage] at hconforms
      | releasing => simp only [Session.Conforms, hkind, hstage]
      | _ =>
          simp only [Session.Conforms, hkind, hstage] at hconforms ⊢
          exact hconforms
  | create =>
      cases hstage : session.stage with
      | responding | sealing =>
          simp only [Session.Conforms, hkind, hstage] at hconforms ⊢
          obtain ⟨hclaimed, hid, hdrafts⟩ := hconforms
          exact ⟨hclaimed, hid, drafts_growth h
            (hfree hkind (hdrafting _ hdrafts (by simp [hstage]))) hdrafts⟩
      | auditing | completing =>
          simp only [Session.Conforms, hkind, hstage] at hconforms ⊢
          obtain ⟨hclaimed, hdrafts⟩ := hconforms
          exact ⟨hclaimed, drafts_growth h
            (hfree hkind (hdrafting _ hdrafts (by simp [hstage]))) hdrafts⟩
      | committing status body =>
          simp only [Session.Conforms, hkind, hstage] at hconforms ⊢
          rcases hconforms with ⟨hblank, hrepeats⟩ | ⟨hstatus, hdrafts, hrow⟩
          · exact .inl ⟨hblank, repeats_growth h hrepeats⟩
          · exact .inr ⟨hstatus, drafts_growth h
              (hfree hkind (hdrafting _ hdrafts (by simp [hstage]))) hdrafts, hrow⟩
      | replaying | done =>
          simp only [Session.Conforms, hkind, hstage] at hconforms ⊢
          exact ⟨hconforms.1, repeats_growth h hconforms.2⟩
      | acting => simp only [Session.Conforms, hkind, hstage] at hconforms
      | releasing => simp only [Session.Conforms, hkind, hstage]
      | _ =>
          simp only [Session.Conforms, hkind, hstage] at hconforms ⊢
          exact hconforms

/-! ## Moves -/

/-- A request that has a case row of its own, as far as it may still commit it. -/
theorem drafts_of_isDrafting (hkind : mutation.operation = .create)
    (hdrafting : session.isDrafting = true)
    (hconforms : session.Conforms service creation mutation now) :
    ∃ response, session.Drafts service creation mutation now response := by
  have hstaged : session.staged ≠ none := by
    intro hnone
    simp [Session.isDrafting, hnone] at hdrafting
  cases hstage : session.stage with
  | responding | sealing =>
      simp only [Session.Conforms, hkind, hstage] at hconforms
      exact ⟨_, hconforms.2.2⟩
  | auditing | completing =>
      simp only [Session.Conforms, hkind, hstage] at hconforms
      exact ⟨_, hconforms.2⟩
  | committing status body =>
      simp only [Session.Conforms, hkind, hstage] at hconforms
      rcases hconforms with ⟨hblank, _⟩ | ⟨_, hdrafts, _⟩
      · exact absurd hblank.1 hstaged
      · exact ⟨_, hdrafts⟩
  | releasing => simp [Session.isDrafting, hstage] at hdrafting
  | acting => simp only [Session.Conforms, hkind, hstage] at hconforms
  | start | locking =>
      simp only [Session.Conforms, hkind, hstage] at hconforms
      exact absurd hconforms.1 hstaged
  | locked | claiming | selecting | clearing | deleting | inserting =>
      simp only [Session.Conforms, hkind, hstage] at hconforms
      exact absurd hconforms.2.1 hstaged
  | working =>
      simp only [Session.Conforms, hkind, hstage] at hconforms
      exact absurd hconforms.2.2 hstaged
  | replaying =>
      simp only [Session.Conforms, hkind, hstage] at hconforms
      exact absurd hconforms.1.1 hstaged
  | invalidating | failed =>
      simp only [Session.Conforms, hkind, hstage] at hconforms
      exact absurd hconforms hstaged
  | done =>
      simp only [Session.Conforms, hkind, hstage] at hconforms
      exact absurd hconforms.1 hstaged

/-- The columns of a creation are those of its request. -/
theorem creation_of_owns {binding : Binding}
    (hmine : (mutation.creation service).owns binding = true)
    (howns : creation.owns binding = true) : mutation.creation service = creation := by
  obtain ⟨htenant, hprincipal, hrequest⟩ := owns_iff.mp hmine
  obtain ⟨htenant', hprincipal', hrequest'⟩ := owns_iff.mp howns
  cases creation with
  | mk tenantId principalId requestSha256 =>
      subst htenant' hprincipal' hrequest'
      exact Creation.mk.injEq .. |>.mpr ⟨htenant.symm, hprincipal.symm, hrequest.symm⟩

theorem createInput_fields (service : Service) (mutation : Mutation) :
    (mutation.createInput service).tenantId = mutation.request.tenantId ∧
      (mutation.createInput service).caseId = mutation.caseId ∧
      (mutation.createInput service).principalId = uuidText mutation.principal.principalId ∧
      (mutation.createInput service).requestSha256 = mutation.requestSha256 service := by
  rw [Mutation.createInput]
  split <;> exact ⟨rfl, rfl, rfl, rfl⟩

/-- **The insert of a creation** makes the draft of its request. -/
theorem drafts_of_create {out : Outcome} (hidentified : mutation.Identified)
    (hlocked : session.advisory = some (mutation.lockKey service))
    (hout : createStatements service.sql catalog now (mutation.createInput service) = .ok out) :
    out.record.caseId = uuidText mutation.newKey.2 ∧
      ∀ stage, { session with staged := some (mutation.newKey, out.tables), stage }.Drafts service
        creation mutation now none := by
  obtain ⟨tenantId, caseId, principalId, htenant, hcase, hprincipal, hrecord, hfree, hbindings⟩ :=
    createStatements_bindings hout
  have hinput := createInput_fields service mutation
  rw [hinput.1, hidentified.tenant] at htenant
  rw [hinput.2.1] at hcase
  rw [hinput.2.2.1, uuidValue_uuidText hidentified.principal] at hprincipal
  obtain rfl := Option.some.inj htenant
  obtain rfl := Option.some.inj hprincipal
  have hkey : mutation.newKey = (mutation.principal.tenantId, caseId) := by
    rw [Mutation.newKey, hidentified.tenant, hcase]
    rfl
  have hunbound : now.bindings mutation.newKey = [] := by
    rw [List.eq_nil_iff_forall_not_mem]
    intro old hold
    obtain ⟨row, hrow, hsame, rfl⟩ := mem_bindings.mp hold
    have hmem : row.binding ∈ now.allBindings := List.mem_map_of_mem hrow
    have hid : row.key.2 = caseId := by rw [hsame, hkey]
    exact (hfree _ hmem).1 hid
  have hbound : out.tables.bindings mutation.newKey = [(mutation.createInput service).draft
      mutation.principal.tenantId caseId mutation.principal.principalId] := by
    rw [hbindings, hunbound, if_pos hkey]
    rfl
  refine ⟨by rw [hrecord, hkey], fun stage => ⟨hlocked, out.tables, _, rfl,
    hbound, hkey.symm, ?_, rfl, hunbound, fun hasks => ?_⟩⟩
  · exact owns_iff.mpr ⟨rfl, rfl, hinput.2.2.2⟩
  · rw [Creation.count, List.countP_eq_zero]
    intro old hold howns
    obtain ⟨-, rfl⟩ := hasks
    obtain ⟨htenant, hprincipal, hrequest⟩ := owns_iff.mp howns
    exact (hfree old hold).2 ⟨htenant, hprincipal, hrequest.trans hinput.2.2.2.symm⟩

theorem newKey_lt (mutation : Mutation) :
    mutation.newKey.1 < 16 ^ 32 ∧ mutation.newKey.2 < 16 ^ 32 := by
  have hvalue : ∀ text, (uuidValue text).getD 0 < 16 ^ 32 := by
    intro text
    cases hid : uuidValue text with
    | none => simp
    | some id => exact uuidValue_lt hid
  exact ⟨hvalue _, hvalue _⟩

/-- **The seal** completes the draft with the response. -/
theorem drafts_of_seal {host : SqlHost} {record : StoredCase} {body auditId : JsString}
    {sealed : Tables} (hidentified : mutation.Identified)
    (hcase : record.caseId = uuidText mutation.newKey.2)
    (hdrafts : session.Drafts service creation mutation now none)
    (hview : ∀ own, session.staged = some (mutation.newKey, own) →
      sealCreation host catalog (now.graft own mutation.newKey) {
        tenantId := uuidText mutation.principal.tenantId, caseId := record.caseId
        principalId := uuidText mutation.principal.principalId
        requestSha256 := mutation.requestSha256 service, responseBody := body
        auditId } = .ok sealed) (stage : Stage) :
    { session with
      staged := session.staged.map fun (staged : CaseKey × Tables) => (staged.1, sealed)
      stage }.Drafts service creation mutation now (some body) := by
  obtain ⟨hlock, own, binding, hstaged, hown, hkey, howns, _, hunbound, hnone⟩ := hdrafts
  have htenant : mutation.newKey.1 = mutation.principal.tenantId := by
    rw [Mutation.newKey, hidentified.tenant]
    rfl
  have hbound : (now.graft own mutation.newKey).bindings mutation.newKey = [binding] := by
    rw [bindings_graft, if_pos rfl, hown]
  obtain ⟨id, hsealed⟩ := sealCreation_bindings
    (by rw [htenant, uuidValue_uuidText (htenant ▸ (newKey_lt mutation).1)])
    (by rw [hcase, uuidValue_uuidText (newKey_lt mutation).2]) hbound (hview own hstaged)
  have hcompleted : sealed.bindings mutation.newKey = [{ binding with
      initialResponseBody := some body, initialAuditId := some id }] := by
    rw [hsealed, if_pos rfl]
  exact ⟨hlock, sealed, _, by rw [hstaged]; rfl, hcompleted, hkey, howns, rfl, hunbound, hnone⟩

/-- The row of a case that is read is bound. -/
theorem rewrites_of_action {host : SqlHost} {record : StoredCase} {key : CaseKey}
    {input : ActionInput} {out : Outcome} (hkeyed : now.Keyed) (hbound : now.bindings key ≠ [])
    (hout : applyAction host catalog now record input = .ok out) (stage : Stage) :
    { session with staged := some (key, out.tables), stage }.Rewrites now :=
  ⟨key, out.tables, rfl, applyAction_bindings hkeyed hout key, hbound⟩

/-- What is read under the lock of a creation is acknowledged for it. -/
theorem repeats_of_row {row : CaseRow} {body : JsString}
    (hrow : now.acknowledged? mutation.principal.tenantId mutation.principal.principalId
      (mutation.requestSha256 service) = some row)
    (hbody : row.initialResponseBody = some body) :
    mutation.Repeats service creation now 201 body := by
  rintro ⟨_, rfl⟩
  have hsame : row.tenantId = mutation.principal.tenantId ∧
      row.createdByPrincipalId = mutation.principal.principalId ∧
      row.createRequestSha256 = mutation.requestSha256 service := by
    simpa using List.find?_some hrow
  exact ⟨rfl, row.binding, List.mem_map_of_mem (List.mem_of_find?_eq_some hrow),
    owns_iff.mpr hsame, hbody⟩

omit [DecidableEq ι] [Fintype ι] in
/-- What is made of the row of a key. -/
theorem conforms_read {version : KeyVersion}
    (h : world.Converging service creation mutations)
    (hkey : world.keys ((mutations i).keyName service) = some version)
    (hblank : (mutations i).operation = .create →
      (world.sessions i).advisory = some ((mutations i).lockKey service) ∧ (world.sessions i).Blank)
    (hstaged : (world.sessions i).staged = none) :
    ((world.sessions i).readKey service (mutations i) version).Conforms service creation
      (mutations i) world.tables := by
  rcases readKey_cases service (world.sessions i) (mutations i) version with
      ⟨failure, _, _, hread⟩ | ⟨completion, hcompletion, _, hdigest, hread⟩ | ⟨_, hread⟩ <;>
    rw [hread]
  · cases hkind : (mutations i).operation <;>
      simp [Session.Conforms, hkind, Session.refuse, Session.close, Session.opening]
  · cases hkind : (mutations i).operation with
    | update => simpa [Session.Conforms, hkind] using hstaged
    | create =>
        simp only [Session.Conforms, hkind]
        refine ⟨(hblank hkind).2, fun hasks => ?_⟩
        obtain ⟨_, rfl⟩ := hasks
        exact h.rows _ version completion hkey hkind rfl rfl hdigest hcompletion
  · cases hkind : (mutations i).operation with
    | update => simpa [Session.Conforms, hkind] using hstaged
    | create =>
        simp only [Session.Conforms, hkind]
        exact hblank hkind

omit [DecidableEq ι] [Fintype ι] in
/-- **Move lemma.**  Whatever a request does next, it stays on its course. -/
theorem conforms_move (hidentified : (mutations i).Identified)
    (h : world.Converging service creation mutations)
    (hmove : Session.Move service mutations world i session) :
    session.Conforms service creation (mutations i) world.tables := by
  have hconforms := h.conforms i
  cases hmove with
  | begin hstage =>
      cases hkind : (mutations i).operation with
      | update | create =>
          simp only [Session.Conforms, hkind, hstage] at hconforms ⊢
          exact hconforms
  | lock hstage hfree =>
      cases hkind : (mutations i).operation with
      | update => simp only [Session.Conforms, hkind, hstage] at hconforms
      | create =>
          simp only [Session.Conforms, hkind, hstage] at hconforms ⊢
          exact ⟨trivial, hconforms⟩
  | aggregate hstage =>
      cases hkind : (mutations i).operation with
      | update => simp only [Session.Conforms, hkind, hstage] at hconforms
      | create =>
          simp only [Session.Conforms, hkind, hstage] at hconforms
          rcases readAggregate_cases (world.sessions i) (world.tables.acknowledged?
              (mutations i).principal.tenantId (mutations i).principal.principalId
              ((mutations i).requestSha256 service)) with
              hread | ⟨row, hrow, body, hbody, _, _, hread⟩ <;> rw [hread]
          · simp only [Session.Conforms, hkind]
            exact hconforms
          · simp only [Session.Conforms, hkind]
            exact ⟨hconforms.2, repeats_of_row hrow hbody⟩
  | selects version hstage hkey hlocked =>
      cases hkind : (mutations i).operation with
      | update | create =>
          simp only [Session.Conforms, hkind, hstage] at hconforms ⊢
          exact hconforms
  | read version hstage hkey hfree =>
      refine conforms_read h hkey (fun hkind => ?_) ?_
      · rcases hstage with hstage | hstage <;>
          simpa only [Session.Conforms, hkind, hstage] using hconforms
      · cases hkind : (mutations i).operation with
        | update =>
            rcases hstage with hstage | hstage <;>
              simpa only [Session.Conforms, hkind, hstage] using hconforms
        | create =>
            rcases hstage with hstage | hstage <;>
              simp only [Session.Conforms, hkind, hstage] at hconforms <;> exact hconforms.2.1
  | unread hstage =>
      rcases hstage with ⟨hstage, _⟩ | ⟨_, hstage, _⟩
      all_goals
        cases hkind : (mutations i).operation with
        | update | create =>
            simp only [Session.Conforms, hkind, hstage] at hconforms ⊢
            exact hconforms
  | deletes version hstage hkey hlocked =>
      cases hkind : (mutations i).operation with
      | update | create =>
          simp only [Session.Conforms, hkind, hstage] at hconforms ⊢
          exact hconforms
  | remove version hstage hkey hfree =>
      rcases hstage with hstage | hstage
      all_goals
        cases hkind : (mutations i).operation with
        | update | create =>
            simp only [Session.Conforms, hkind, hstage] at hconforms ⊢
            exact hconforms
  | unremoved hstage =>
      rcases hstage with ⟨hstage, _⟩ | ⟨_, hstage, _⟩
      all_goals
        cases hkind : (mutations i).operation with
        | update | create =>
            simp only [Session.Conforms, hkind, hstage] at hconforms ⊢
            exact hconforms
  | collide version hstage hfree hrival =>
      cases hkind : (mutations i).operation <;> simp only [Session.Conforms, hkind] <;> rfl
  | insert hstage hfree hrival =>
      cases hkind : (mutations i).operation with
      | update => simpa only [Session.Conforms, hkind, hstage] using hconforms
      | create =>
          simp only [Session.Conforms, hkind, hstage] at hconforms ⊢
          exact ⟨hconforms.1, trivial, hconforms.2.1⟩
  | throws failure aborted hthrows =>
      cases hkind : (mutations i).operation <;> simp only [Session.Conforms, hkind, Session.caught]
  | create out hstage hkind hfree hout =>
      simp only [Session.Conforms, hkind, hstage] at hconforms ⊢
      obtain ⟨hlocked, hclaimed, _⟩ := hconforms
      obtain ⟨hcase, hdrafts⟩ := drafts_of_create hidentified hlocked hout
      exact ⟨hclaimed, hcase, hdrafts _⟩
  | lockCase key record hstage hbody hfree hrecord =>
      obtain ⟨_, _, _, hbody, _⟩ := hbody
      have hkind : (mutations i).operation = .update := by
        rw [Mutation.operation, CaseRequest.operation, hbody]
      simp only [Session.Conforms, hkind, hstage] at hconforms ⊢
      exact ⟨hconforms, bindings_ne_nil hrecord⟩
  | act record key caseId expectedRevision action out hstage hbody hout =>
      have hkind : (mutations i).operation = .update := by
        rw [Mutation.operation, CaseRequest.operation, hbody]
      simp only [Session.Conforms, hkind, hstage] at hconforms ⊢
      exact rewrites_of_action h.keyed hconforms.2 hout _
  | respond record hstage haccepts =>
      cases hkind : (mutations i).operation with
      | update | create =>
          simp only [Session.Conforms, hkind, hstage] at hconforms ⊢
          exact hconforms
  | sealing record body tables hstage hsealed =>
      cases hkind : (mutations i).operation with
      | update => simp only [Session.Conforms, hkind, hstage] at hconforms
      | create =>
          simp only [Session.Conforms, hkind, hstage] at hconforms ⊢
          obtain ⟨hclaimed, hcase, hdrafts⟩ := hconforms
          have hview : ∀ own, (world.sessions i).staged = some ((mutations i).newKey, own) →
              world.view (world.sessions i) = world.tables.graft own (mutations i).newKey := by
            intro own hstaged
            rw [World.view, hstaged]
          exact ⟨hclaimed, drafts_of_seal hidentified hcase hdrafts
            (fun own hstaged => hview own hstaged ▸ hsealed) _⟩
  | audit body hstage =>
      cases hkind : (mutations i).operation with
      | update | create =>
          simp only [Session.Conforms, hkind, hstage] at hconforms ⊢
          exact hconforms
  | complete body row hstage hrow hmine =>
      cases hkind : (mutations i).operation with
      | update =>
          simp only [Session.Conforms, hkind, hstage] at hconforms ⊢
          exact .inr hconforms
      | create =>
          simp only [Session.Conforms, hkind, hstage] at hconforms ⊢
          obtain ⟨hclaimed, hdrafts⟩ := hconforms
          obtain rfl := Option.some.inj (hrow.symm.trans hclaimed)
          exact .inr ⟨rfl, hdrafts, _, rfl, rfl, rfl⟩
  | release failure hstage =>
      rw [Session.release]
      cases hkind : (mutations i).operation <;> split <;>
        simp only [Session.Conforms, hkind] <;> rfl
  | recognize status body auditId hstage hbody =>
      cases hkind : (mutations i).operation with
      | update =>
          simp only [Session.Conforms, hkind, hstage] at hconforms ⊢
          exact .inl hconforms
      | create =>
          simp only [Session.Conforms, hkind, hstage] at hconforms ⊢
          exact .inl hconforms
  | reject status body auditId hstage hbody =>
      cases hkind : (mutations i).operation with
      | update => simpa only [Session.Conforms, hkind, hstage] using hconforms
      | create =>
          simp only [Session.Conforms, hkind, hstage] at hconforms ⊢
          exact hconforms.1.1
  | forget hstage hnone =>
      cases hkind : (mutations i).operation <;> simp only [Session.Conforms, hkind] <;> rfl

omit [DecidableEq ι] [Fintype ι] in
/-- Only the insert of a creation makes a request one that has a case row. -/
theorem move_drafting (hkind : (mutations i).operation = .create)
    (hconforms : (world.sessions i).Conforms service creation (mutations i) world.tables)
    (hmove : Session.Move service mutations world i session)
    (hdrafting : session.isDrafting = true) :
    (world.sessions i).isDrafting = true ∨
      ¬ world.awaitsCase i ((mutations i).createInput service) ∧
        ∃ out, createStatements service.sql world.catalog world.tables
          ((mutations i).createInput service) = .ok out := by
  have hstaged : ∀ stage, (world.sessions i).stage = stage → (∀ failure, stage ≠ .releasing failure) →
      (world.sessions i).staged.isSome = true → (world.sessions i).isDrafting = true := by
    intro stage hstage hnot hsome
    cases stage with
    | releasing failure => exact absurd rfl (hnot failure)
    | _ => simp [Session.isDrafting, hstage, hsome]
  have hsome : session.staged.isSome = true := by
    rw [Session.isDrafting, Bool.and_eq_true] at hdrafting
    exact hdrafting.1
  cases hmove with
  | create out hstage _ hfree hout => exact .inr ⟨hfree, out, hout⟩
  | act record key caseId expectedRevision action out hstage =>
      simp only [Session.Conforms, hkind, hstage] at hconforms
  | aggregate hstage =>
      left
      refine hstaged _ hstage (fun _ h => by cases h) ?_
      rcases readAggregate_cases (world.sessions i) (world.tables.acknowledged?
          (mutations i).principal.tenantId (mutations i).principal.principalId
          ((mutations i).requestSha256 service)) with hread | ⟨_, _, _, _, _, _, hread⟩ <;>
        rwa [hread] at hsome
  | read version hstage =>
      left
      have hbefore : (world.sessions i).staged.isSome = true := by
        rcases readKey_cases service (world.sessions i) (mutations i) version with
            ⟨_, _, _, hread⟩ | ⟨_, _, _, _, hread⟩ | ⟨_, hread⟩ <;> rw [hread] at hsome
        · cases hsome
        · exact hsome
        · exact hsome
      rcases hstage with hstage | hstage <;> exact hstaged _ hstage (fun _ h => by cases h) hbefore
  | unread hstage | unremoved hstage =>
      left
      rcases hstage with ⟨hstage, _⟩ | ⟨_, hstage, _⟩ <;> exact hstaged _ hstage (fun _ h => by cases h) hsome
  | remove version hstage =>
      left
      rcases hstage with hstage | hstage <;> exact hstaged _ hstage (fun _ h => by cases h) hsome
  | throws failure aborted hthrows => simp [Session.isDrafting, Session.caught] at hdrafting
  | sealing record body tables hstage hsealed =>
      left
      exact hstaged _ hstage (fun _ h => by cases h) (by simpa using hsome)
  | release failure hstage =>
      rw [Session.release] at hsome
      split at hsome <;> cases hsome
  | collide | forget => cases hsome
  | begin hstage | lock hstage | selects _ hstage | deletes _ hstage | insert hstage
  | lockCase _ _ hstage | respond _ hstage | audit _ hstage | complete _ _ hstage
  | recognize _ _ _ hstage | reject _ _ _ hstage =>
      exact .inl (hstaged _ hstage (fun _ h => by cases h) hsome)

omit [DecidableEq ι] [Fintype ι] in
theorem draftKey_eq_some {key : CaseKey} :
    world.draftKey mutations i = some key ↔ (mutations i).operation = .create ∧
      (world.sessions i).isDrafting = true ∧ (mutations i).newKey = key := by
  simp [World.draftKey, and_assoc]

omit [DecidableEq ι] [Fintype ι] in
/-- An insert that waits for nobody is the only one under its key. -/
theorem draftKey_free {out : Outcome}
    (hconforms : ∀ i, (world.sessions i).Conforms service creation (mutations i) world.tables)
    (hfree : ¬ world.awaitsCase i ((mutations i).createInput service))
    (hout : createStatements service.sql world.catalog world.tables
      ((mutations i).createInput service) = .ok out) :
    ∀ j, j ≠ i → world.draftKey mutations j ≠ some (mutations i).newKey := by
  intro j hj hkey
  obtain ⟨hkind, hdrafting, hsame⟩ := draftKey_eq_some.mp hkey
  obtain ⟨_, _, own, binding, hstaged, hown, _⟩ :=
    drafts_of_isDrafting hkind hdrafting (hconforms j)
  obtain ⟨row, hrow, hrowKey, _⟩ :=
    mem_bindings.mp (hown ▸ List.mem_singleton.mpr rfl : binding ∈ own.bindings (mutations j).newKey)
  obtain ⟨_, caseId, _, _, hcase, _⟩ := createStatements_bindings hout
  have hid : row.id = caseId := by
    have hcaseId := hcase
    rw [(createInput_fields service (mutations i)).2.1] at hcaseId
    have hsecond : row.key.2 = (mutations i).newKey.2 := by rw [hrowKey, hsame]
    rwa [Mutation.newKey, hcaseId] at hsecond
  exact hfree ⟨j, hj, _, hstaged, row, hrow, hrowKey, .inl (by rw [hid, hcase])⟩

omit [Fintype ι] in
/-- A transaction changes, and the keys of the drafts stay apart. -/
theorem apart_put (h : Sole (world.draftKey mutations))
    (hnew : (mutations i).operation = .create → session.isDrafting = true →
      (world.sessions i).isDrafting = true ∨
        ∀ j, j ≠ i → world.draftKey mutations j ≠ some (mutations i).newKey) :
    Sole ((world.put i session).draftKey mutations) := by
  have hput := put_field (fun j session =>
    if (mutations j).operation = .create ∧ session.isDrafting = true then some (mutations j).newKey
    else none) world i session
  unfold World.draftKey
  rw [hput]
  refine Sole.update h fun key hkey => ?_
  by_cases hdrafting : (mutations i).operation = .create ∧ session.isDrafting = true
  · obtain rfl : (mutations i).newKey = key := by simpa [hdrafting] using hkey
    rcases hnew hdrafting.1 hdrafting.2 with hold | hfree
    · exact h.free (draftKey_eq_some.mpr ⟨hdrafting.1, hold, rfl⟩)
    · exact hfree
  · rw [if_neg hdrafting] at hkey
    cases hkey

omit [Fintype ι] in
/-- **Frame.**  A request takes a step that commits nothing. -/
theorem converging_put (h : world.Converging service creation mutations)
    (htaken : Taken service mutations world i session.holding)
    (hconforms : session.Conforms service creation (mutations i) world.tables)
    (hnew : (mutations i).operation = .create → session.isDrafting = true →
      (world.sessions i).isDrafting = true ∨
        ∀ j, j ≠ i → world.draftKey mutations j ≠ some (mutations i).newKey) :
    (world.put i session).Converging service creation mutations where
  exclusive := exclusive_put h.exclusive htaken
  keyed := h.keyed
  once := h.once
  rows := h.rows
  apart := apart_put h.apart hnew
  conforms := by
    intro j
    by_cases hj : j = i
    · subst hj
      rw [put_self]
      exact hconforms
    · rw [put_other _ _ hj]
      exact h.conforms j

omit [DecidableEq ι] [Fintype ι] in
/-- A statement that fails on the server. -/
theorem conforms_fault (message : String)
    (hconforms : session.Conforms service creation mutation now) :
    (session.fault message).Conforms service creation mutation now ∧
      ((session.fault message).isDrafting = true → session.isDrafting = true) := by
  have hrefuse : ∀ failure, (session.refuse failure).Conforms service creation mutation now := by
    intro failure
    cases hkind : mutation.operation <;> simp only [Session.Conforms, hkind] <;> rfl
  have hcaught : ∀ failure aborted,
      (session.caught failure aborted).Conforms service creation mutation now := by
    intro failure aborted
    cases hkind : mutation.operation <;> simp only [Session.Conforms, hkind, Session.caught]
  rw [Session.fault]
  split
  case h_6 => split <;> exact ⟨hrefuse _, fun h => by cases h⟩
  case h_11 => exact ⟨hrefuse _, fun h => by cases h⟩
  case h_7 | h_8 | h_9 | h_10 => exact ⟨hconforms, id⟩
  all_goals exact ⟨hcaught _ _, by simp [Session.isDrafting, Session.caught]⟩

/-! ## Commits -/

omit [DecidableEq ι] [Fintype ι] in
/-- **What a commit adds**: the draft of its request, if that is a creation. -/
theorem commit_growth {status : Nat} {body : JsString}
    (h : world.Converging service creation mutations)
    (hstage : (world.sessions i).stage = .committing status body) :
    ∃ added, world.tables.Growth (world.view (world.sessions i)) added ∧
      ∀ binding ∈ added, binding.key = (mutations i).newKey ∧
        ((mutations i).creation service).owns binding = true ∧
        (mutations i).operation = .create ∧
        (world.sessions i).Drafts service creation (mutations i) world.tables
          binding.initialResponseBody := by
  have hconforms := h.conforms i
  have hunstaged : (world.sessions i).staged = none →
      world.tables.Growth (world.view (world.sessions i)) none := by
    intro hnone
    rw [World.view, hnone]
    exact .same fun key => rfl
  cases hkind : (mutations i).operation with
  | update =>
      simp only [Session.Conforms, hkind, hstage] at hconforms
      rcases hconforms with hnone | ⟨key, own, hstaged, hsame, _⟩
      · exact ⟨none, hunstaged hnone, fun _ h => by cases h⟩
      · refine ⟨none, .same fun other => ?_, fun _ h => by cases h⟩
        rw [World.view, hstaged, bindings_graft]
        split
        next hother => rw [hother, hsame]
        · rfl
  | create =>
      simp only [Session.Conforms, hkind, hstage] at hconforms
      rcases hconforms with ⟨hblank, _⟩ | ⟨_, hdrafts, _⟩
      · exact ⟨none, hunstaged hblank.1, fun _ h => by cases h⟩
      · have hdrafts' := hdrafts
        obtain ⟨_, own, binding, hstaged, hown, hkey, howns, hresponse, hunbound, _⟩ := hdrafts
        refine ⟨some binding, .add binding (hkey ▸ hunbound) fun other => ?_, ?_⟩
        · rw [World.view, hstaged, bindings_graft, hown, hkey]
        · intro other hother
          obtain rfl : binding = other := by simpa using hother
          exact ⟨hkey, howns, rfl, hresponse ▸ hdrafts'⟩

/-- Requests with one creation ask for one lock. -/
theorem lockKey_of_creation {first second : Mutation}
    (h : first.creation service = second.creation service) :
    first.lockKey service = second.lockKey service := by
  obtain ⟨htenant, hprincipal, hrequest⟩ := Creation.mk.inj h
  rw [Mutation.lockKey, Mutation.lockKey, htenant, hprincipal, hrequest]

omit [DecidableEq ι] [Fintype ι] in
/-- No other request that is to insert a case collides with what is added. -/
theorem added_apart {binding : Binding} {j : ι} {response : Option JsString}
    (h : world.Converging service creation mutations) (hj : j ≠ i)
    (hkind : (mutations i).operation = .create) (hdrafting : (world.sessions i).isDrafting = true)
    (hdrafts : (world.sessions i).Drafts service creation (mutations i) world.tables response)
    (hkey : binding.key = (mutations i).newKey)
    (howns : ((mutations i).creation service).owns binding = true)
    (hkind' : (mutations j).operation = .create)
    (hdrafting' : (world.sessions j).isDrafting = true) :
    binding.key ≠ (mutations j).newKey ∧
      (creation.Asks service (mutations j) → creation.owns binding = false) := by
  constructor
  · intro hsame
    exact hj (h.apart j i _ (draftKey_eq_some.mpr ⟨hkind', hdrafting', rfl⟩)
      (draftKey_eq_some.mpr ⟨hkind, hdrafting, hkey.symm.trans hsame⟩))
  · rintro ⟨_, rfl⟩
    by_contra howned
    have hsame : (mutations i).creation service = (mutations j).creation service :=
      creation_of_owns howns (by simpa using howned)
    obtain ⟨_, hdrafts'⟩ := drafts_of_isDrafting hkind' hdrafting' (h.conforms j)
    -- Both would hold the lock of the creation.
    refine hj (h.exclusive.advisory j i _ hdrafts'.1 ?_)
    rw [← lockKey_of_creation hsame]
    exact hdrafts.1

omit [Fintype ι] in
/-- **Commit lemma.** -/
theorem converging_commit {status : Nat} {body : JsString}
    (h : world.Converging service creation mutations)
    (hstage : (world.sessions i).stage = .committing status body)
    (hexclusive : (world.commit service (mutations i) i (world.sessions i) status
      body).Exclusive service mutations) :
    (world.commit service (mutations i) i (world.sessions i) status body).Converging service
      creation mutations := by
  obtain ⟨added, hgrowth, hadded⟩ := commit_growth h hstage
  have hconforms := h.conforms i
  have hself : (world.commit service (mutations i) i (world.sessions i) status body).sessions i =
      { (world.sessions i).close (.done status body) with
        applied := (world.sessions i).applied || (world.sessions i).staged.isSome } :=
    put_self _ _ _
  have hother : ∀ j, j ≠ i →
      (world.commit service (mutations i) i (world.sessions i) status body).sessions j =
        world.sessions j := fun j hj => put_other _ _ hj
  have hdrafting : (mutations i).operation = .create →
      ∀ response, (world.sessions i).Drafts service creation (mutations i) world.tables response →
        (world.sessions i).isDrafting = true := by
    rintro hkind response ⟨_, own, _, hstaged, _⟩
    simp [Session.isDrafting, hstage, hstaged]
  have hnew : (mutations i).operation = .create →
      (mutations i).Repeats service creation (world.view (world.sessions i)) status body := by
    intro hkind hasks
    simp only [Session.Conforms, hkind, hstage] at hconforms
    rcases hconforms with ⟨_, hrepeats⟩ | ⟨hstatus, hdrafts, _⟩
    · exact repeats_growth hgrowth hrepeats hasks
    · obtain ⟨_, own, binding, hstaged, hown, hkey, howns, hresponse, _⟩ := hdrafts
      obtain ⟨_, rfl⟩ := hasks
      refine ⟨hstatus, binding, mem_allBindings.mpr ?_, howns, hresponse⟩
      rw [World.view, hstaged, bindings_graft, if_pos hkey, hown]
      exact List.mem_singleton.mpr rfl
  refine ⟨hexclusive, growth_keyed hgrowth h.keyed, ?_, ?_, ?_, fun j => ?_⟩
  · show creation.count (world.view (world.sessions i)) ≤ 1
    rw [growth_count hgrowth]
    cases added with
    | none => simpa using h.once
    | some binding =>
        obtain ⟨_, howns, hkind, hdrafts⟩ := hadded binding rfl
        by_cases howned : creation.owns binding = true
        · obtain ⟨_, _, _, _, _, _, _, _, _, hnone⟩ := hdrafts
          rw [hnone ⟨hkind, creation_of_owns howns howned⟩]
          simp [howned]
        · simpa [howned] using h.once
  · intro name version completion hversion hoperation htenant hprincipal hrequest hcompletion
    rw [commit_keys] at hversion
    have hold : world.keys name = some version → completion.status = 201 ∧
        creation.Acknowledges (world.view (world.sessions i)) completion.body := by
      intro hkept
      obtain ⟨hstatus, hbody⟩ :=
        h.rows name version completion hkept hoperation htenant hprincipal hrequest hcompletion
      exact ⟨hstatus, growth_acknowledges hgrowth hbody⟩
    by_cases hname : name = (mutations i).keyName service
    swap
    · rw [if_neg hname] at hversion
      exact hold hversion
    rw [if_pos hname] at hversion
    cases hinserted : (world.sessions i).inserted with
    | none =>
        rw [hinserted] at hversion
        by_cases hremoved : (world.sessions i).removed = true
        · simp [hremoved] at hversion
        · exact hold (by simpa [hremoved] using hversion)
    | some row =>
        rw [hinserted] at hversion
        obtain rfl : _ = version := Option.some.inj hversion
        subst hname
        have hkind : (mutations i).operation = .create := hoperation
        have hrepeats := hnew hkind
        simp only [Session.Conforms, hkind, hstage] at hconforms
        rcases hconforms with ⟨hblank, _⟩ | ⟨_, _, final, hrow, hstatus, hbody⟩
        · cases hinserted.symm.trans hblank.2
        · obtain rfl := Option.some.inj (hinserted.symm.trans hrow)
          obtain rfl := Option.some.inj hcompletion
          have hasks : creation.Asks service (mutations i) := by
            refine ⟨hkind, ?_⟩
            rw [Mutation.creation]
            exact Creation.mk.injEq .. |>.mpr ⟨htenant, hprincipal, hrequest⟩
          exact ⟨hstatus, hbody ▸ (hrepeats hasks).2⟩
  · show Sole ((world.put i { (world.sessions i).close (.done status body) with
      applied := (world.sessions i).applied || (world.sessions i).staged.isSome }).draftKey mutations)
    exact apart_put h.apart fun _ h => by cases h
  · by_cases hj : j = i
    · subst hj
      rw [hself]
      cases hkind : (mutations j).operation with
      | update =>
          simp only [Session.Conforms, hkind]
          rfl
      | create =>
          simp only [Session.Conforms, hkind]
          exact ⟨rfl, hnew hkind⟩
    · rw [hother j hj]
      refine conforms_growth hgrowth (fun hkind' hdrafting' binding hbinding => ?_) (h.conforms j)
      obtain ⟨hkey, howns, hkind, hdrafts⟩ := hadded binding hbinding
      exact added_apart h hj hkind (hdrafting hkind _ hdrafts) hdrafts hkey howns hkind' hdrafting'

/-! ## The law -/

/-- What is stored when the first request begins: ids are the primary key of the
cases, a creation is unique among them, and a stored answer to a creation is
acknowledged by its case. -/
structure Creation.Stored (creation : Creation) (tables : Tables)
    (keys : KeyName → Option KeyVersion) : Prop where
  ids : (tables.cases.map CaseRow.id).Nodup
  once : creation.count tables ≤ 1
  rows : ∀ name version completion, keys name = some version → name.operation = .create →
    name.tenantId = creation.tenantId → name.principalId = creation.principalId →
    version.row.requestSha256 = creation.requestSha256 →
    version.row.completion = some completion →
      completion.status = 201 ∧ creation.Acknowledges tables completion.body

omit [DecidableEq ι] [Fintype ι] in
theorem converging_opening {catalog : Catalog} {tables : Tables}
    {keys : KeyName → Option KeyVersion} {nextTid : Nat} (h : creation.Stored tables keys) :
    (World.opening ι catalog tables keys nextTid).Converging service creation mutations where
  exclusive := exclusive_opening catalog tables keys nextTid
  keyed := keyed_of_nodup h.ids
  once := h.once
  rows := h.rows
  apart := sole_of_none fun i => by simp [World.draftKey, Session.isDrafting, World.opening,
    Session.opening]
  conforms := by
    intro i
    cases hkind : (mutations i).operation with
    | update =>
        simp only [Session.Conforms, hkind, World.opening, Session.opening]
    | create =>
        simp only [Session.Conforms, hkind, World.opening, Session.opening]
        exact ⟨rfl, rfl⟩

/-- **Step lemma.** -/
theorem converging_step (hidentified : ∀ i, (mutations i).Identified)
    (h : world.Converging service creation mutations) (event : Event ι) :
    (world.step service mutations event).Converging service creation mutations := by
  have hexclusive := exclusive_step h.exclusive event
  obtain ⟨next, hnext, hchange⟩ := step_cases service mutations world event
  rw [hnext] at hexclusive ⊢
  cases hchange with
  | wait i => exact h
  | catalog catalog => exact ⟨hexclusive, h.keyed, h.once, h.rows, h.apart, h.conforms⟩
  | move i session hmove =>
      refine converging_put h (move_taken hmove) (conforms_move (hidentified i) h hmove) ?_
      intro hkind hdrafting
      refine (move_drafting hkind (h.conforms i) hmove hdrafting).imp id ?_
      rintro ⟨hfree, out, hout⟩
      exact draftKey_free h.conforms hfree hout
  | fault i message =>
      obtain ⟨hconforms, hdrafting⟩ := conforms_fault message (h.conforms i)
      exact converging_put h (fault_taken message) hconforms fun _ hnew => .inl (hdrafting hnew)
  | commit i status body hstage => exact converging_commit h hstage hexclusive
  | invalidate i version hstage hkey hfree =>
      have hends : ((world.sessions i).refuse (.api 500 "internal_error")).Conforms service creation
          (mutations i) world.tables := by
        cases hkind : (mutations i).operation <;> simp only [Session.Conforms, hkind] <;> rfl
      have hput : (world.put i ((world.sessions i).refuse (.api 500 "internal_error"))).Converging
          service creation mutations := converging_put h .ends hends nofun
      refine ⟨hexclusive, hput.keyed, hput.once, ?_, hput.apart, hput.conforms⟩
      intro name other completion hother
      by_cases hname : name = (mutations i).keyName service
      · change Function.update world.keys _ none name = some other at hother
        rw [hname, Function.update_self] at hother
        cases hother
      · have hkept : world.keys name = some other :=
          (Function.update_of_ne hname ..).symm.trans hother
        exact h.rows name other completion hkept

/-- At most one case has been created, and exactly one when a request for it has
returned: then every such request has returned 201 and its response. -/
def World.Converged (service : Service) (creation : Creation) (mutations : ι → Mutation)
    (world : World ι) : Prop :=
  creation.count world.tables ≤ 1 ∧
    ∀ i status body, creation.Asks service (mutations i) →
      (world.sessions i).stage = .done status body →
        status = 201 ∧ creation.count world.tables = 1 ∧ creation.Acknowledges world.tables body ∧
          ∀ j other answer, creation.Asks service (mutations j) →
            (world.sessions j).stage = .done other answer → answer = body

/-- The body that a case acknowledges is acknowledged after the step. -/
def World.KeepsAcknowledged (service : Service) (creation : Creation) (mutations : ι → Mutation)
    (world : World ι) (event : Event ι) : Prop :=
  ∀ body, creation.Acknowledges world.tables body →
    creation.Acknowledges (world.step service mutations event).tables body

omit [DecidableEq ι] [Fintype ι] in
theorem answered (h : world.Converging service creation mutations) {status : Nat} {body : JsString}
    (hasks : creation.Asks service (mutations i))
    (hstage : (world.sessions i).stage = .done status body) :
    status = 201 ∧ creation.Acknowledges world.tables body := by
  have hconforms := h.conforms i
  simp only [Session.Conforms, hasks.1, hstage] at hconforms
  exact hconforms.2 hasks

omit [DecidableEq ι] [Fintype ι] in
theorem converged_of_converging (h : world.Converging service creation mutations) :
    world.Converged service creation mutations := by
  refine ⟨h.once, fun i status body hasks hstage => ?_⟩
  obtain ⟨hstatus, hbody⟩ := answered h hasks hstage
  refine ⟨hstatus, le_antisymm h.once (count_pos_of_acknowledges hbody), hbody, ?_⟩
  intro j other answer hasks' hstage'
  exact acknowledges_unique h.once (answered h hasks' hstage').2 hbody

theorem acknowledged_step (h : world.Converging service creation mutations) (event : Event ι) :
    world.KeepsAcknowledged service creation mutations event := by
  intro body hbody
  obtain ⟨next, hnext, hchange⟩ := step_cases service mutations world event
  rw [hnext]
  cases hchange with
  | commit i status answer hstage =>
      obtain ⟨added, hgrowth, _⟩ := commit_growth h hstage
      exact growth_acknowledges hgrowth hbody
  | _ => exact hbody

/-- **Creations converge**, in every interleaving of any requests, changes of the
catalog and failing statements: the requests for one case leave one case at most,
all that return have 201 and its response, and no step changes that response. -/
theorem creations_converge (service : Service) (creation : Creation) (mutations : ι → Mutation)
    (catalog : Catalog) (tables : Tables) (keys : KeyName → Option KeyVersion) (nextTid : Nat)
    (hidentified : ∀ i, (mutations i).Identified) (hstored : creation.Stored tables keys)
    (events : List (Event ι)) :
    Throughout (World.step service mutations) (World.Converged service creation mutations)
        (.opening ι catalog tables keys nextTid) events ∧
      EachStep (World.step service mutations)
        (World.KeepsAcknowledged service creation mutations)
        (.opening ι catalog tables keys nextTid) events := by
  have hopening : (World.opening ι catalog tables keys nextTid).Converging service creation
      mutations := converging_opening hstored
  have hkeep : ∀ (world : World ι) event, world.Converging service creation mutations →
      (world.step service mutations event).Converging service creation mutations :=
    fun _ event h => converging_step hidentified h event
  exact laws_of_invariant hkeep (fun _ h => converged_of_converging h)
    (fun _ event h => acknowledged_step h event) hopening events

/-! ## Two requests for one case -/

/-- The same request under two keys. -/
def sampleTwins (second : Bool) : Mutation :=
  if second = true then
    { sampleCreation 20 with
      idempotencyKey := sampleUuid 60, auditId := sampleUuid 61, caseId := sampleUuid 62
      eventId := sampleUuid 63 }
  else sampleCreation 20

def sampleTwinCreation : Creation := (sampleCreation 20).creation sampleService

/-- The second request waits for the lock that the first holds. -/
def sampleTwinRun : List (Event Bool) :=
  [.proceed false, .proceed true, .proceed false, .proceed true] ++
    List.replicate 10 (.proceed false) ++ List.replicate 5 (.proceed true)

theorem creations_converge_sample :
    Throughout (World.step sampleService sampleTwins)
        (World.Converged sampleService sampleTwinCreation sampleTwins)
        (.opening Bool sampleCatalog .empty (fun _ => none) 0) sampleTwinRun ∧
      EachStep (World.step sampleService sampleTwins)
        (World.KeepsAcknowledged sampleService sampleTwinCreation sampleTwins)
        (.opening Bool sampleCatalog .empty (fun _ => none) 0) sampleTwinRun := by
  have hidentified : ∀ i, (sampleTwins i).Identified := by
    intro i
    cases i
    · exact ⟨by decide +kernel, by decide⟩
    · exact ⟨by decide +kernel, by decide⟩
  have hstored : sampleTwinCreation.Stored .empty fun _ => none :=
    ⟨List.nodup_nil, Nat.zero_le 1, fun _ _ _ h => nomatch h⟩
  exact creations_converge sampleService sampleTwinCreation sampleTwins sampleCatalog .empty _ 0
    hidentified hstored sampleTwinRun

/-- The workflow of the requests is not there. -/
def sampleRefusals : World Bool :=
  run (World.step sampleService sampleTwins)
    (.opening Bool { sampleCatalog with workflows := [] } .empty (fun _ => none) 0)
    (List.replicate 8 (.proceed false) ++ List.replicate 8 (.proceed true))

/-- Both requests ask for the case, both have an answer, and no case is there. -/
theorem refused_creations_leave_none :
    (∀ i, sampleTwinCreation.Asks sampleService (sampleTwins i)) ∧
      (∀ i, (sampleRefusals.sessions i).stage = .failed (.caseError
        { code := "workflow_not_approved", message := "Approved workflow version required" })) ∧
      sampleTwinCreation.count sampleRefusals.tables = 0 := by
  decide +kernel

end Cases
