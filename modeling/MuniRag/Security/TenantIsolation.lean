import MuniRag.Lib.Unwinding
import MuniRag.Security.TenantTransactions

/-!
# Isolation of tenants

In every run of calls of any tenants, a statement runs under the setting of its own tenant, a
commit changes rows of that tenant only, and no connection goes back to the pool with a
transaction open (`transactions_isolated`).  The rows are those of the committed transactions, one
after the other and each at most once (`commits_atomic`).  So a tenant sees of a run what it would
see alone (`tenant_alone`).
-/

namespace TenantTransactions

open Runs

variable {ι κ β γ ε ω : Type}

/-! ## Rows -/

section Rows

variable {rows rows' : Rows κ β} {changes : List (Change κ β)} {tenant : Uuid}
  {tenantId : JsString} {session : Session κ β} {phase : Phase κ β γ ε ω} {client : Nat}
  {command : Command κ β γ ε}

theorem visible_congr (h : rows tenant = rows' tenant) :
    visible rows (some tenant) = visible rows' (some tenant) := by
  funext owner key
  unfold visible
  split_ifs with hsame
  · obtain rfl := Option.some.inj hsame
    rw [h]
  · rfl

theorem visible_self (rows : Rows κ β) (tenant : Uuid) :
    visible rows (some tenant) tenant = rows tenant := by
  funext key
  exact if_pos rfl

theorem committing_of_command {phase : Phase κ β γ ε ω}
    (h : phase.command tenantId = some (client, (.commit : Command κ β γ ε))) :
    ∃ result, phase = .committing client result := by
  unfold Phase.command at h
  split at h <;> cases h
  exact ⟨_, rfl⟩

variable [DecidableEq κ]

/-- The rows of a tenant after changes are determined by its rows before. -/
theorem applied_congr (h : rows tenant = rows' tenant) (changes : List (Change κ β)) :
    applied rows changes tenant = applied rows' changes tenant := by
  induction changes generalizing rows rows' with
  | nil => exact h
  | cons change changes ih =>
      refine ih ?_
      unfold changed
      by_cases hsame : change.tenant = tenant
      · rw [hsame, Function.update_self, Function.update_self, h]
      · rw [Function.update_of_ne (Ne.symm hsame), Function.update_of_ne (Ne.symm hsame), h]

/-- Changes of one tenant leave the rows of another. -/
theorem applied_other (h : ∀ change ∈ changes, change.tenant ≠ tenant) :
    applied rows changes tenant = rows tenant := by
  induction changes generalizing rows with
  | nil => rfl
  | cons change changes ih =>
      refine (ih fun other hother => h other (List.mem_cons_of_mem _ hother)).trans ?_
      exact Function.update_of_ne (Ne.symm (h change List.mem_cons_self)) _ _

/-- The rows after a request: only a commit changes any. -/
theorem exchange_rows (rows : Rows κ β) (session : Session κ β) (command : Command κ β γ ε)
    (fault : Fault ε) : (exchange rows session command fault).2.2 = rows ∨
    command = .commit ∧ ∃ setting written, session = .inTransaction setting written ∧
      (exchange rows session command fault).2.2 = applied rows written := by
  have hserved : (serve rows session command).2.2 = rows ∨ command = .commit ∧
      ∃ setting written, session = .inTransaction setting written ∧
        (serve rows session command).2.2 = applied rows written := by
    cases command with
    | commit =>
        cases session with
        | inTransaction setting written => exact .inr ⟨rfl, setting, written, rfl, rfl⟩
        | idle => exact .inl rfl
        | aborted => exact .inl rfl
    | statement run =>
        left
        unfold serve
        cases session with
        | idle =>
            simp only
            split
            · rfl
            · split_ifs <;> rfl
        | inTransaction setting written =>
            simp only
            split
            · rfl
            · split_ifs <;> rfl
        | aborted => rfl
    | begin => cases session <;> exact .inl rfl
    | setTenant text => cases session <;> exact .inl rfl
    | rollback => exact .inl rfl
  cases fault with
  | none => exact hserved
  | refused error => exact .inl rfl
  | unsent error => exact .inl rfl
  | unheard error => exact hserved

/-- A request of a call leaves the rows of the other tenants. -/
theorem exchange_other (rows : Rows κ β) (fault : Fault ε)
    (hfits : Fits tenantId session phase)
    (hcommand : phase.command tenantId = some (client, command))
    (hother : uuidValue tenantId ≠ some tenant) :
    (exchange rows session command fault).2.2 tenant = rows tenant := by
  rcases exchange_rows rows session command fault with
    hkept | ⟨rfl, setting, written, rfl, happlied⟩
  · rw [hkept]
  · obtain ⟨result, rfl⟩ := committing_of_command hcommand
    rw [happlied]
    refine applied_other fun change hchange hsame => hother ?_
    rcases hfits with habort | ⟨written', hsession, hwritten⟩
    · cases habort
    · cases hsession
      rw [hwritten change hchange, hsame]

end Rows

/-! ## What one step does -/

/-- Nothing is left open in the pool, and a connection is held by one call. -/
structure Clean (state : State ι κ β γ ε ω) : Prop where
  pooled : ∀ client session, state.connections client = .pooled session → session = .idle
  held : ∀ client session, state.connections client = .held session →
    ∃! call, (state.phases call).client = some client

theorem Inv.clean {calls : Calls ι κ β γ ε ω} {state : State ι κ β γ ε ω} (h : Inv calls state) :
    Clean state := by
  refine ⟨h.pooled, fun client session hheld => ?_⟩
  obtain ⟨call, hcall⟩ := h.held client session hheld
  exact ⟨call, hcall, fun other hother => h.alone other call client hother hcall⟩

variable [DecidableEq ι] [DecidableEq κ]

/-- A step changes rows of its own tenant only, and a statement runs under its setting, or in a
transaction that refuses it. -/
structure Confined (calls : Calls ι κ β γ ε ω) (state : State ι κ β γ ε ω) (event : Event ι ε) :
    Prop where
  writes : ∀ tenant, uuidValue (calls.tenantId event.call) ≠ some tenant →
    (step calls state event).rows tenant = state.rows tenant
  reads : ∀ client statement next, state.phases event.call = .operating client statement next →
    ∃ session, state.connections client = .held session ∧
      (session = .aborted ∨ ∃ setting written, session = .inTransaction setting written ∧
        currentTenantId setting = uuidValue (calls.tenantId event.call))

variable {calls : Calls ι κ β γ ε ω}

theorem Steps.rows {state after : State ι κ β γ ε ω} {event : Event ι ε}
    (hsteps : Steps calls state event after) (h : Inv calls state) {tenant : Uuid}
    (hother : uuidValue (calls.tenantId event.call) ≠ some tenant) :
    after.rows tenant = state.rows tenant := by
  cases hsteps with
  | stays => rfl
  | fails error hwaiting => rfl
  | connects session hwaiting hvalid hclear hfree => rfl
  | requests client command session hcommand hheld =>
      obtain ⟨session', hheld', hfits⟩ := h.holds _ _ (client_of_command hcommand)
      obtain rfl : session = session' := by
        rw [hheld] at hheld'
        cases hheld'
        rfl
      exact exchange_other state.rows event.fault hfits hcommand hother
  | releases client outcome poisoned hreleasing => rfl

theorem Inv.confined {state : State ι κ β γ ε ω} (h : Inv calls state) (event : Event ι ε) :
    Confined calls state event := by
  refine ⟨fun tenant hother => (steps_step calls state event).rows h hother,
    fun client statement next hoperating => ?_⟩
  obtain ⟨session, hheld, hfits⟩ := h.holds event.call client (by rw [hoperating]; rfl)
  rw [hoperating] at hfits
  refine ⟨session, hheld, hfits.imp_right ?_⟩
  rintro ⟨written, hsession, -⟩
  exact ⟨_, written, hsession, currentTenantId_lower _⟩

/-- **Tenants are isolated.**  Whatever calls are made, in whatever order their steps are taken
and whatever fails, every statement runs under the setting of its own tenant or is refused, every
step leaves the rows of the other tenants, and no connection is in the pool with a transaction
open or held by two calls. -/
theorem transactions_isolated (calls : Calls ι κ β γ ε ω) (rows : Rows κ β)
    (events : List (Event ι ε)) :
    Throughout (step calls) Clean (start rows) events ∧
      EachStep (step calls) (Confined calls) (start rows) events :=
  laws_of_invariant inv_step (fun _ h => h.clean) (fun _ event h => h.confined event)
    (inv_start calls rows) events

/-! ## The transactions of a run -/

/-- The changes that a commit of the session would make. -/
def Session.written : Session κ β → List (Change κ β)
  | .inTransaction _ written => written
  | _ => []

/-- The call whose commit the database does in a step, with its changes. -/
def committed (state : State ι κ β γ ε ω) (event : Event ι ε) :
    Option (ι × List (Change κ β)) :=
  match state.phases event.call with
  | .committing client _ =>
      match state.connections client, event.fault with
      | .held session, .none | .held session, .unheard _ => some (event.call, session.written)
      | _, _ => none
  | _ => none

/-- The call has returned a result, up to the release of its connection. -/
def Phase.returned : Phase κ β γ ε ω → Bool
  | .releasing _ (.ok _) _ | .finished (.ok _) => true
  | _ => false

/-- The call may still commit. -/
def Phase.uncommitted : Phase κ β γ ε ω → Bool
  | .waiting | .connected _ | .begun _ | .operating _ _ _ | .committing _ _ => true
  | _ => false

/-- The rows are what the transactions of a log lead to, each of a call of its own. -/
structure Logged (calls : Calls ι κ β γ ε ω) (rows : Rows κ β)
    (log : List (ι × List (Change κ β))) (state : State ι κ β γ ε ω) : Prop where
  rows : state.rows = log.foldl (fun rows entry => applied rows entry.2) rows
  once : (log.map Prod.fst).Nodup
  own : ∀ entry ∈ log, ∀ change ∈ entry.2,
    uuidValue (calls.tenantId entry.1) = some change.tenant
  returned : ∀ call, (state.phases call).returned = true → call ∈ log.map Prod.fst
  uncommitted : ∀ call, (state.phases call).uncommitted = true → call ∉ log.map Prod.fst

omit [DecidableEq ι] in
theorem logged_start (calls : Calls ι κ β γ ε ω) (rows : Rows κ β) :
    Logged calls rows [] (start rows) :=
  ⟨rfl, List.nodup_nil, (fun _ h => by cases h), (fun _ h => by cases h),
    (fun _ _ h => by cases h)⟩

section Log

variable {rows : Rows κ β} {log : List (ι × List (Change κ β))} {state : State ι κ β γ ε ω}
  {event : Event ι ε}

/-- A step of a call that commits nothing. -/
theorem Logged.quiet (h : Logged calls rows log state) {after : State ι κ β γ ε ω}
    (hrows : after.rows = state.rows)
    (hothers : ∀ call, call ≠ event.call → after.phases call = state.phases call)
    (hreturned : (after.phases event.call).returned = true →
      (state.phases event.call).returned = true)
    (huncommitted : (after.phases event.call).uncommitted = true →
      (state.phases event.call).uncommitted = true) : Logged calls rows log after := by
  refine ⟨hrows.trans h.rows, h.once, h.own, fun call hcall => ?_, fun call hcall => ?_⟩
  · by_cases hsame : call = event.call
    · subst hsame
      exact h.returned _ (hreturned hcall)
    · exact h.returned call (hothers call hsame ▸ hcall)
  · by_cases hsame : call = event.call
    · subst hsame
      exact h.uncommitted _ (huncommitted hcall)
    · exact h.uncommitted call (hothers call hsame ▸ hcall)

/-- A step that commits. -/
theorem Logged.commit (h : Logged calls rows log state) {after : State ι κ β γ ε ω}
    {changes : List (Change κ β)} (hrows : after.rows = applied state.rows changes)
    (hothers : ∀ call, call ≠ event.call → after.phases call = state.phases call)
    (hbefore : (state.phases event.call).uncommitted = true)
    (hafter : (after.phases event.call).uncommitted = false)
    (hown : ∀ change ∈ changes, uuidValue (calls.tenantId event.call) = some change.tenant) :
    Logged calls rows (log ++ [(event.call, changes)]) after := by
  have hnew := h.uncommitted _ hbefore
  refine ⟨?_, ?_, fun entry hentry => ?_, fun call hcall => ?_, fun call hcall => ?_⟩
  · rw [hrows, h.rows, List.foldl_append]
    rfl
  · rw [List.map_append, List.nodup_append]
    refine ⟨h.once, List.nodup_singleton _, fun call hcall other hother => ?_⟩
    obtain rfl := List.mem_singleton.mp hother
    rintro rfl
    exact hnew hcall
  · rcases List.mem_append.mp hentry with hold | hlast
    · exact h.own entry hold
    · obtain rfl := List.mem_singleton.mp hlast
      exact hown
  · rw [List.map_append, List.mem_append]
    by_cases hsame : call = event.call
    · exact .inr (by simp [hsame])
    · exact .inl (h.returned call (hothers call hsame ▸ hcall))
  · rw [List.map_append, List.mem_append, not_or]
    have hsame : call ≠ event.call := by
      rintro rfl
      rw [hafter] at hcall
      cases hcall
    exact ⟨h.uncommitted call (hothers call hsame ▸ hcall), by simpa using hsame⟩

omit [DecidableEq κ] in
theorem returned_operated (client : Nat) (operation : Operation κ β γ ε ω) :
    (operated client operation).returned = false := by
  unfold operated
  split <;> rfl

omit [DecidableEq κ] in
/-- A request other than a commit neither returns nor lets a call commit again. -/
theorem replied_quiet {tenantId : JsString} {phase : Phase κ β γ ε ω} {client : Nat}
    {command : Command κ β γ ε} (operation : Operation κ β γ ε ω) (reply : Reply γ ε)
    (hcommand : phase.command tenantId = some (client, command))
    (hphase : ∀ client result, phase ≠ .committing client result) :
    (phase.replied operation reply).returned = false ∧
      ((phase.replied operation reply).uncommitted = true → phase.uncommitted = true) := by
  cases phase with
  | waiting => cases hcommand
  | finished outcome => cases hcommand
  | releasing client outcome poisoned => cases hcommand
  | committing client result => exact absurd rfl (hphase client result)
  | connected client => exact ⟨by cases reply <;> rfl, fun _ => rfl⟩
  | begun client =>
      refine ⟨?_, fun _ => rfl⟩
      cases reply with
      | error error => rfl
      | ok answer => exact returned_operated client operation
  | operating client statement next => exact ⟨returned_operated client _, fun _ => rfl⟩
  | rollingBack client error =>
      refine ⟨by cases reply <;> rfl, fun h => ?_⟩
      cases reply <;> cases h

theorem Steps.quiet {after : State ι κ β γ ε ω} (hsteps : Steps calls state event after)
    (hphase : ∀ client result, state.phases event.call ≠ .committing client result)
    (h : Logged calls rows log state) : Logged calls rows log after := by
  cases hsteps with
  | stays => exact h
  | fails error hwaiting =>
      refine h.quiet rfl (fun call hcall => enter_other hcall) (fun hafter => ?_) fun hafter => ?_
      · rw [enter_self] at hafter
        cases hafter
      · rw [enter_self] at hafter
        cases hafter
  | connects session hwaiting hvalid hclear hfree =>
      refine h.quiet rfl (fun call hcall => enter_other hcall) (fun hafter => ?_) fun _ => ?_
      · rw [enter_self] at hafter
        cases hafter
      · rw [hwaiting]
        rfl
  | requests client command session hcommand hheld =>
      have hquiet := replied_quiet (calls.operation event.call)
        (exchange state.rows session command event.fault).1 hcommand hphase
      refine h.quiet ?_ (fun call hcall => enter_other hcall) (fun hafter => ?_) fun hafter => ?_
      · rcases exchange_rows state.rows session command event.fault with hkept | ⟨rfl, -⟩
        · exact hkept
        · obtain ⟨result, hcommitting⟩ := committing_of_command hcommand
          exact absurd hcommitting (hphase client result)
      · rw [enter_self, hquiet.1] at hafter
        cases hafter
      · rw [enter_self] at hafter
        exact hquiet.2 hafter
  | releases client outcome poisoned hreleasing =>
      refine h.quiet rfl (fun call hcall => enter_other hcall) (fun hafter => ?_) fun hafter => ?_
      · rw [enter_self] at hafter
        rw [hreleasing]
        cases outcome with
        | ok result => rfl
        | error error => cases hafter
      · rw [enter_self] at hafter
        cases hafter

theorem serve_commit (rows : Rows κ β) (session : Session κ β) :
    serve rows session (.commit : Command κ β γ ε) =
      (.ok none, .idle, applied rows session.written) := by
  cases session <;> rfl

theorem logged_step (hinv : Inv calls state) (h : Logged calls rows log state) :
    Logged calls rows (log ++ (committed state event).toList) (step calls state event) := by
  by_cases hcommitting : ∃ client result, state.phases event.call = .committing client result
  · obtain ⟨client, result, hcommitting⟩ := hcommitting
    obtain ⟨session, hheld, hfits⟩ := hinv.holds event.call client (by rw [hcommitting]; rfl)
    rw [hcommitting] at hfits
    have hown : ∀ change ∈ session.written,
        uuidValue (calls.tenantId event.call) = some change.tenant := by
      rcases hfits with rfl | ⟨written, rfl, hwritten⟩
      · exact fun change hchange => by cases hchange
      · exact hwritten
    have hstep : step calls state event = enter (putConnection
        { state with rows := (exchange state.rows session
            (.commit : Command κ β γ ε) event.fault).2.2 } client
          (.held (exchange state.rows session (.commit : Command κ β γ ε) event.fault).2.1))
        event.call ((Phase.committing client result).replied (calls.operation event.call)
          (exchange state.rows session (.commit : Command κ β γ ε) event.fault).1) := by
      unfold step
      rw [hcommitting]
      change request calls state event client .commit = _
      unfold request
      rw [hheld, hcommitting]
    have huncommitted : (state.phases event.call).uncommitted = true := by
      rw [hcommitting]
      rfl
    rw [hstep]
    cases hfault : event.fault with
    | none =>
        have hcommitted : committed state event = some (event.call, session.written) := by
          simp only [committed, hcommitting, hheld, hfault]
        rw [hcommitted]
        refine h.commit (by rw [exchange, serve_commit]; rfl) (fun call hcall => enter_other hcall)
          huncommitted ?_ hown
        rw [enter_self, exchange, serve_commit]
        rfl
    | unheard error =>
        have hcommitted : committed state event = some (event.call, session.written) := by
          simp only [committed, hcommitting, hheld, hfault]
        rw [hcommitted]
        refine h.commit (by rw [exchange, serve_commit]; rfl) (fun call hcall => enter_other hcall)
          huncommitted ?_ hown
        rw [enter_self]
        rfl
    | refused error =>
        have hnone : committed state event = none := by
          simp only [committed, hcommitting, hheld, hfault]
        rw [hnone, Option.toList_none, List.append_nil]
        refine h.quiet rfl (fun call hcall => enter_other hcall) (fun hafter => ?_)
          fun _ => huncommitted
        rw [enter_self] at hafter
        cases hafter
    | unsent error =>
        have hnone : committed state event = none := by
          simp only [committed, hcommitting, hheld, hfault]
        rw [hnone, Option.toList_none, List.append_nil]
        refine h.quiet rfl (fun call hcall => enter_other hcall) (fun hafter => ?_)
          fun _ => huncommitted
        rw [enter_self] at hafter
        cases hafter
  · have hphase : ∀ client result, state.phases event.call ≠ .committing client result :=
      fun client result h => hcommitting ⟨client, result, h⟩
    have hnone : committed state event = none := by
      unfold committed
      split
      · rename_i client result hphase'
        exact absurd hphase' (hphase client result)
      · rfl
    rw [hnone, Option.toList_none, List.append_nil]
    exact (steps_step calls state event).quiet hphase h

theorem logged_run (hinv : Inv calls state) (h : Logged calls rows log state)
    (events : List (Event ι ε)) :
    Logged calls rows (log ++ outputs (step calls) committed state events)
      (run (step calls) state events) := by
  have hkeep : ∀ log state event, Inv calls state ∧ Logged calls rows log state →
      Inv calls (step calls state event) ∧
        Logged calls rows (log ++ (committed state event).toList) (step calls state event) :=
    fun _ state event hboth => ⟨inv_step state event hboth.1, logged_step hboth.1 hboth.2⟩
  exact (outputs_invariant (fun log state => Inv calls state ∧ Logged calls rows log state) hkeep
    ⟨hinv, h⟩ events).2

end Log

/-- The two states look alike to a tenant; in the second the others have done nothing. -/
structure Alike (calls : Calls ι κ β γ ε ω) (tenant : Uuid) (state state' : State ι κ β γ ε ω) :
    Prop where
  rows : state.rows tenant = state'.rows tenant
  phases : ∀ call, uuidValue (calls.tenantId call) = some tenant →
    state.phases call = state'.phases call
  connections : ∀ call client, uuidValue (calls.tenantId call) = some tenant →
    (state.phases call).client = some client →
    state.connections client = state'.connections client
  others : ∀ call, uuidValue (calls.tenantId call) ≠ some tenant →
    state'.phases call = .waiting
  destroyed : ∀ client, state'.connections client = .destroyed →
    state.connections client = .destroyed

section Alike

variable {tenant : Uuid} {state state' after : State ι κ β γ ε ω} {event : Event ι ε}

/-- A step leaves the connections that are held by other calls. -/
theorem Steps.connections (hsteps : Steps calls state event after) (client : Nat) :
    after.connections client = state.connections client ∨
      (∃ session, (state.connections client).free = some session) ∨
      (state.phases event.call).client = some client := by
  cases hsteps with
  | stays => exact .inl rfl
  | fails error hwaiting => exact .inl rfl
  | connects session hwaiting hvalid hclear hfree =>
      by_cases hsame : client = event.connection
      · exact .inr (.inl ⟨session, hsame ▸ hfree⟩)
      · exact .inl (putConnection_other hsame)
  | requests client' command session hcommand hheld =>
      by_cases hsame : client = client'
      · exact .inr (.inr (hsame ▸ client_of_command hcommand))
      · exact .inl (putConnection_other hsame)
  | releases client' outcome poisoned hreleasing =>
      by_cases hsame : client = client'
      · exact .inr (.inr (by rw [hreleasing, hsame]; rfl))
      · exact .inl (putConnection_other hsame)

theorem Steps.phases (hsteps : Steps calls state event after) {call : ι}
    (hother : call ≠ event.call) : after.phases call = state.phases call := by
  cases hsteps with
  | stays => rfl
  | fails error hwaiting => exact enter_other hother
  | connects session hwaiting hvalid hclear hfree => exact enter_other hother
  | requests client command session hcommand hheld => exact enter_other hother
  | releases client outcome poisoned hreleasing => exact enter_other hother

/-- The steps of others are not seen. -/
theorem alike_other (hinv : Inv calls state)
    (hother : uuidValue (calls.tenantId event.call) ≠ some tenant)
    (h : Alike calls tenant state state') : Alike calls tenant (step calls state event) state' := by
  have hsteps := steps_step calls state event
  have hne : ∀ call, uuidValue (calls.tenantId call) = some tenant → call ≠ event.call := by
    rintro call hcall rfl
    exact hother hcall
  refine ⟨(hsteps.rows hinv hother).trans h.rows, fun call hcall => ?_,
    fun call client hcall hclient => ?_, h.others, fun client hdestroyed => ?_⟩
  · exact (hsteps.phases (hne call hcall)).trans (h.phases call hcall)
  · rw [hsteps.phases (hne call hcall)] at hclient
    refine Eq.trans ?_ (h.connections call client hcall hclient)
    rcases hsteps.connections client with hsame | ⟨session, hfree⟩ | hheld
    · exact hsame
    · obtain ⟨session', hheld, -⟩ := hinv.holds call client hclient
      rw [hheld] at hfree
      cases hfree
    · exact absurd (hinv.alone call event.call client hclient hheld) (hne call hcall)
  · have hbefore := h.destroyed client hdestroyed
    rcases hsteps.connections client with hsame | ⟨session, hfree⟩ | hheld
    · exact hsame.trans hbefore
    · rw [hbefore] at hfree
      cases hfree
    · obtain ⟨session, hsession, -⟩ := hinv.holds event.call client hheld
      rw [hbefore] at hsession
      cases hsession

omit [DecidableEq κ] in
/-- Both states go on alike. -/
theorem Alike.moved (h : Alike calls tenant state state') {rows rows' : Rows κ β}
    (hrows : rows tenant = rows' tenant) {client : Nat} {connection : Connection κ β} {call : ι}
    (hcall : uuidValue (calls.tenantId call) = some tenant) {phase : Phase κ β γ ε ω}
    (hphase : ∀ client', phase.client = some client' → client' = client) :
    Alike calls tenant
      (enter (putConnection { state with rows := rows } client connection) call phase)
      (enter (putConnection { state' with rows := rows' } client connection) call phase) := by
  refine ⟨hrows, fun other hother => ?_, fun other client' hother hclient => ?_,
    fun other hother => ?_, fun client' hdestroyed => ?_⟩
  · by_cases hsame : other = call
    · subst hsame
      rw [enter_self, enter_self]
    · rw [enter_other hsame, enter_other hsame]
      exact h.phases other hother
  · rw [enter_connections, enter_connections]
    by_cases hsame : client' = client
    · subst hsame
      rw [putConnection_self, putConnection_self]
    · rw [putConnection_other hsame, putConnection_other hsame]
      have hne : other ≠ call := by
        rintro rfl
        rw [enter_self] at hclient
        exact hsame (hphase client' hclient)
      rw [enter_other hne] at hclient
      exact h.connections other client' hother hclient
  · have hne : other ≠ call := by
      rintro rfl
      exact hother hcall
    rw [enter_other hne]
    exact h.others other hother
  · rw [enter_connections] at hdestroyed ⊢
    by_cases hsame : client' = client
    · subst hsame
      rw [putConnection_self] at hdestroyed ⊢
      exact hdestroyed
    · rw [putConnection_other hsame] at hdestroyed ⊢
      exact h.destroyed client' hdestroyed

/-- A reply to a call depends on the rows of its tenant. -/
theorem exchange_congr {tenantId : JsString} {session : Session κ β} {phase : Phase κ β γ ε ω}
    {client : Nat} {command : Command κ β γ ε} {rows rows' : Rows κ β} (fault : Fault ε)
    (htenant : uuidValue tenantId = some tenant) (hrows : rows tenant = rows' tenant)
    (hfits : Fits tenantId session phase)
    (hcommand : phase.command tenantId = some (client, command)) :
    (exchange rows session command fault).1 = (exchange rows' session command fault).1 ∧
      (exchange rows session command fault).2.1 = (exchange rows' session command fault).2.1 ∧
      (exchange rows session command fault).2.2 tenant =
        (exchange rows' session command fault).2.2 tenant := by
  have hserved : (serve rows session command).1 = (serve rows' session command).1 ∧
      (serve rows session command).2.1 = (serve rows' session command).2.1 ∧
      (serve rows session command).2.2 tenant = (serve rows' session command).2.2 tenant := by
    cases command with
    | begin => cases session <;> exact ⟨rfl, rfl, hrows⟩
    | setTenant text => cases session <;> exact ⟨rfl, rfl, hrows⟩
    | rollback => exact ⟨rfl, rfl, hrows⟩
    | commit =>
        rw [serve_commit, serve_commit]
        exact ⟨rfl, rfl, applied_congr hrows _⟩
    | statement run =>
        have hworking : Working tenantId session := by
          cases phase <;> cases hcommand
          exact hfits
        rcases hworking with rfl | ⟨written, rfl, -⟩
        · exact ⟨rfl, rfl, hrows⟩
        · unfold serve
          simp only [currentTenantId_lower, htenant]
          rw [visible_congr (applied_congr hrows written)]
          split
          · exact ⟨rfl, rfl, hrows⟩
          · split_ifs
            · exact ⟨rfl, rfl, hrows⟩
            · exact ⟨rfl, rfl, hrows⟩
  cases fault with
  | none => exact hserved
  | refused error => exact ⟨rfl, rfl, hrows⟩
  | unsent error => exact ⟨rfl, rfl, hrows⟩
  | unheard error => exact ⟨rfl, hserved.2⟩

omit [DecidableEq ι] [DecidableEq κ] in
/-- A connection that is free in the one state is free in the other, and idle in both. -/
theorem Alike.free (h : Alike calls tenant state state') (hinv : Inv calls state)
    (hinv' : Inv calls state') {client : Nat} {session : Session κ β}
    (hfree : (state.connections client).free = some session) :
    session = .idle ∧ (state'.connections client).free = some .idle := by
  have hidle : ∀ {state : State ι κ β γ ε ω} {session : Session κ β}, Inv calls state →
      (state.connections client).free = some session → session = .idle := by
    intro state session hinv hfree
    rcases (not_held_of_free hfree).2 with ⟨-, hidle⟩ | hpooled
    · exact hidle
    · exact hinv.pooled client session hpooled
  refine ⟨hidle hinv hfree, ?_⟩
  cases hconnection : state'.connections client with
  | unused => rfl
  | pooled session' => rw [hinv'.pooled client session' hconnection]; rfl
  | held session' =>
      obtain ⟨call, hcall⟩ := hinv'.held client session' hconnection
      have hown : uuidValue (calls.tenantId call) = some tenant := by
        by_contra hother
        rw [h.others call hother] at hcall
        cases hcall
      rw [← h.phases call hown] at hcall
      obtain ⟨session'', hheld, -⟩ := hinv.holds call client hcall
      rw [hheld] at hfree
      cases hfree
  | destroyed =>
      rw [h.destroyed client hconnection] at hfree
      cases hfree

theorem alike_request (h : Alike calls tenant state state') (hinv : Inv calls state)
    (hown : uuidValue (calls.tenantId event.call) = some tenant) {client : Nat}
    {command : Command κ β γ ε} (hcommand : (state.phases event.call).command
      (calls.tenantId event.call) = some (client, command)) :
    Alike calls tenant (request calls state event client command)
      (request calls state' event client command) := by
  have hclient := client_of_command hcommand
  obtain ⟨session, hheld, hfits⟩ := hinv.holds event.call client hclient
  have hheld' := (h.connections event.call client hown hclient).symm.trans hheld
  obtain ⟨hreply, hsession, hrows⟩ := exchange_congr event.fault hown h.rows hfits hcommand
  unfold request
  rw [hheld, hheld', ← h.phases event.call hown]
  simp only [← hreply, ← hsession]
  refine h.moved hrows hown fun client' hclient' => ?_
  rw [(fits_replied state.rows event.fault (calls.operation event.call) hfits hcommand).2]
    at hclient'
  exact (Option.some.inj hclient').symm

omit [DecidableEq κ] in
theorem alike_connect (h : Alike calls tenant state state') (hinv : Inv calls state)
    (hinv' : Inv calls state') (hown : uuidValue (calls.tenantId event.call) = some tenant) :
    Alike calls tenant (connect calls state event) (connect calls state' event) ∨
      Alike calls tenant (connect calls state event) state' := by
  unfold connect
  rw [hown, if_neg (by simp), if_neg (by simp)]
  cases event.fault.error with
  | some error =>
      refine .inl ?_
      refine ⟨h.rows, fun call hcall => ?_, fun call client hcall hclient => ?_,
        fun call hcall => ?_, h.destroyed⟩
      · by_cases hne : call = event.call
        · rw [hne, enter_self, enter_self]
        · rw [enter_other hne, enter_other hne]
          exact h.phases call hcall
      · by_cases hne : call = event.call
        · rw [hne, enter_self] at hclient
          cases hclient
        · rw [enter_other hne] at hclient
          exact h.connections call client hcall hclient
      · rw [enter_other]
        · exact h.others call hcall
        · rintro rfl
          exact hcall hown
  | none =>
      cases hfree : (state.connections event.connection).free with
      | none => exact .inr h
      | some session =>
          obtain ⟨rfl, hfree'⟩ := h.free hinv hinv' hfree
          rw [hfree']
          refine .inl (h.moved h.rows hown fun client' hclient' => ?_)
          exact (Option.some.inj hclient').symm

/-- A step of the tenant's own does the same to both, or it still waits for a connection. -/
theorem alike_own (h : Alike calls tenant state state') (hinv : Inv calls state)
    (hinv' : Inv calls state') (hown : uuidValue (calls.tenantId event.call) = some tenant) :
    Alike calls tenant (step calls state event) (step calls state' event) ∨
      Alike calls tenant (step calls state event) state' := by
  unfold step
  rw [← h.phases event.call hown]
  cases hphase : state.phases event.call with
  | waiting => exact alike_connect h hinv hinv' hown
  | finished outcome => exact .inl h
  | releasing client outcome poisoned =>
      have hclient : (state.phases event.call).client = some client := by
        rw [hphase]
        rfl
      simp only [← h.connections event.call client hown hclient]
      exact .inl (h.moved h.rows hown fun client' hclient' => by cases hclient')
  | connected client => exact .inl (alike_request h hinv hown (by rw [hphase]; rfl))
  | begun client => exact .inl (alike_request h hinv hown (by rw [hphase]; rfl))
  | operating client statement next =>
      exact .inl (alike_request h hinv hown (by rw [hphase]; rfl))
  | committing client result => exact .inl (alike_request h hinv hown (by rw [hphase]; rfl))
  | rollingBack client error => exact .inl (alike_request h hinv hown (by rw [hphase]; rfl))

end Alike

/-- **A tenant sees what it would see alone.**  For every run there is one with steps of the
tenant's calls only, some of those of the run in their order, on a database with the rows of the
tenant only, after which its rows and its calls are the same: every reply that a call got, and
what it returned or threw. -/
theorem tenant_alone (calls : Calls ι κ β γ ε ω) (rows : Rows κ β) (tenant : Uuid)
    (events : List (Event ι ε)) :
    ∃ own, own.Sublist (events.filter fun event =>
        decide (uuidValue (calls.tenantId event.call) = some tenant)) ∧
      (run (step calls) (start rows) events).rows tenant =
        (run (step calls) (start (visible rows (some tenant))) own).rows tenant ∧
      ∀ call, uuidValue (calls.tenantId call) = some tenant →
        (run (step calls) (start rows) events).phases call =
          (run (step calls) (start (visible rows (some tenant))) own).phases call := by
  have hstart : Alike calls tenant (start rows) (start (visible rows (some tenant))) :=
    ⟨(visible_self rows tenant).symm, fun _ _ => rfl, (fun _ _ _ h => by cases h),
      fun _ _ => rfl, (fun _ h => by cases h)⟩
  obtain ⟨own, hsub, -, halike⟩ := exists_own_run inv_step
    (fun state state' event hinv _ hother halike => alike_other hinv (by simpa using hother) halike)
    (fun state state' event hinv hinv' hown halike =>
      alike_own halike hinv hinv' (of_decide_eq_true hown))
    (inv_start calls rows) (inv_start calls _) hstart events
  exact ⟨own, hsub, halike.rows, halike.phases⟩

/-! ## Two tenants on one connection -/

/-- Each call stores its number for tenant 1, whoever calls; the second is of tenant 2. -/
def sampleCalls : Calls Bool Unit Nat Unit Unit Unit where
  tenantId second := if second then uuidText 2 else uuidText 1
  operation second := .query (fun _ => .ok ((), [⟨1, (), some second.toNat⟩])) fun
    | .ok _ => .finish (.ok ())
    | .error error => .finish (.error error)

/-- The steps of a call on the first connection, where nothing fails. -/
def sampleSteps (second : Bool) : List (Event Bool Unit) := List.replicate 6 ⟨second, 0, .none⟩

example :
    (run (step sampleCalls) (start fun _ _ => none) (sampleSteps false ++ sampleSteps true)).rows
      1 () = some 0 := by decide +kernel

end TenantTransactions
