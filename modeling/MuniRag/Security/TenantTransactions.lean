import MuniRag.Lib.Runs
import MuniRag.Text

/-!
# Transactions of a tenant

`security/tenant.ts` runs the database work of a request in a transaction with a tenant setting of
its own, on a connection of a pool that all requests share; the policies of
`003_identity_tenancy_rbac.sql` show a statement the rows of the tenant that is set, and none
without one.  Calls of any number of tenants go on at once, a step of one after a step of another;
any request of a call may be refused by the database, or its reply lost before or after the
database did what it says.
-/

namespace TenantTransactions

/-- What is thrown: an invalid tenant ("Invalid tenant context"), or an error of the database. -/
inductive Thrown (ε : Type)
  | invalidTenantContext
  | transactionAborted
  | policyViolated
  | database (error : ε)
  deriving DecidableEq, Repr

/-- A row of a tenant, as it is after a statement; `none` is a deleted row. -/
structure Change (κ β : Type) where
  tenant : Uuid
  key : κ
  content : Option β
  deriving DecidableEq, Repr

/-- The rows of all tables, by tenant and key. -/
abbrev Rows (κ β : Type) := Uuid → κ → Option β

abbrev Reply (γ ε : Type) := Except (Thrown ε) (Option γ)

/-- A statement, by what it does with the rows that it sees. -/
abbrev Statement (κ β γ ε : Type) := Rows κ β → Except ε (γ × List (Change κ β))

/-- The work of a request: statements, each chosen after the reply to the one before, and a
result in the end. -/
inductive Operation (κ β γ ε ω : Type)
  | finish (result : Except (Thrown ε) ω)
  | query (statement : Statement κ β γ ε) (next : Reply γ ε → Operation κ β γ ε ω)

inductive Command (κ β γ ε : Type)
  | begin
  | setTenant (text : JsString)
  | statement (run : Statement κ β γ ε)
  | commit
  | rollback

/-- A session of the database. -/
inductive Session (κ β : Type)
  | idle
  | inTransaction (setting : Option JsString) (written : List (Change κ β))
  | aborted
  deriving DecidableEq, Repr

/-! ## The database -/

section Database

variable {κ β γ ε : Type} [DecidableEq κ]

/-- `identity.current_tenant_id`. -/
def currentTenantId (setting : Option JsString) : Option Uuid := setting.bind uuidValue

/-- What the policies show: the rows of the tenant that is set. -/
def visible (rows : Rows κ β) (tenant : Option Uuid) : Rows κ β := fun owner key =>
  if tenant = some owner then rows owner key else none

def changed (rows : Rows κ β) (change : Change κ β) : Rows κ β :=
  Function.update rows change.tenant
    (Function.update (rows change.tenant) change.key change.content)

def applied (rows : Rows κ β) (changes : List (Change κ β)) : Rows κ β :=
  changes.foldl changed rows

/-- The database does what a session asks for. -/
def serve (rows : Rows κ β) (session : Session κ β) :
    Command κ β γ ε → Reply γ ε × Session κ β × Rows κ β
  | .begin =>
      match session with
      | .idle => (.ok none, .inTransaction none [], rows)
      | .inTransaction setting written => (.ok none, .inTransaction setting written, rows)
      | .aborted => (.error .transactionAborted, .aborted, rows)
  | .setTenant text =>
      match session with
      -- Outside of a transaction a local setting ends with its statement.
      | .idle => (.ok none, .idle, rows)
      | .inTransaction _ written => (.ok none, .inTransaction (some text) written, rows)
      | .aborted => (.error .transactionAborted, .aborted, rows)
  | .statement run =>
      match session with
      | .idle =>
          match run (visible rows none) with
          | .error error => (.error (.database error), .idle, rows)
          | .ok (answer, changes) =>
              if changes = [] then (.ok (some answer), .idle, rows)
              else (.error .policyViolated, .idle, rows)
      | .inTransaction setting written =>
          match run (visible (applied rows written) (currentTenantId setting)) with
          | .error error => (.error (.database error), .aborted, rows)
          | .ok (answer, changes) =>
              if ∀ change ∈ changes, currentTenantId setting = some change.tenant then
                (.ok (some answer), .inTransaction setting (written ++ changes), rows)
              else (.error .policyViolated, .aborted, rows)
      | .aborted => (.error .transactionAborted, .aborted, rows)
  | .commit =>
      match session with
      | .inTransaction _ written => (.ok none, .idle, applied rows written)
      -- The commit of an aborted transaction rolls it back, and succeeds.
      | _ => (.ok none, .idle, rows)
  | .rollback => (.ok none, .idle, rows)

/-- What goes wrong with a request: the database refuses it, or the reply is lost, before or after
the database has done what it says. -/
inductive Fault (ε : Type)
  | none
  | refused (error : ε)
  | unsent (error : ε)
  | unheard (error : ε)
  deriving DecidableEq, Repr

def Fault.error : Fault ε → Option ε
  | .none => Option.none
  | .refused error | .unsent error | .unheard error => some error

/-- The session after a request that the database refused; a commit that is refused rolls back. -/
def refused : Session κ β → Command κ β γ ε → Session κ β
  | _, .commit => .idle
  | .inTransaction _ _, _ => .aborted
  | session, _ => session

/-- A request and its reply. -/
def exchange (rows : Rows κ β) (session : Session κ β) (command : Command κ β γ ε) :
    Fault ε → Reply γ ε × Session κ β × Rows κ β
  | .none => serve rows session command
  | .refused error => (.error (.database error), refused session command, rows)
  | .unsent error => (.error (.database error), session, rows)
  | .unheard error => (.error (.database error), (serve rows session command).2)

end Database

/-! ## The call -/

/-- A connection of the pool. -/
inductive Connection (κ β : Type)
  | unused
  | pooled (session : Session κ β)
  | held (session : Session κ β)
  | destroyed
  deriving DecidableEq, Repr

/-- Where a call of `withTenantTransaction` is. -/
inductive Phase (κ β γ ε ω : Type)
  | waiting
  | connected (client : Nat)
  | begun (client : Nat)
  | operating (client : Nat) (statement : Statement κ β γ ε)
      (next : Reply γ ε → Operation κ β γ ε ω)
  | committing (client : Nat) (result : ω)
  | rollingBack (client : Nat) (error : Thrown ε)
  | releasing (client : Nat) (outcome : Except (Thrown ε) ω) (poisoned : Bool)
  | finished (outcome : Except (Thrown ε) ω)

/-- The calls, by what they are called with. -/
structure Calls (ι κ β γ ε ω : Type) where
  tenantId : ι → JsString
  operation : ι → Operation κ β γ ε ω

section Calls

variable {ι κ β γ ε ω : Type}

/-- The connection that a call holds. -/
def Phase.client : Phase κ β γ ε ω → Option Nat
  | .waiting | .finished _ => none
  | .connected client | .begun client | .operating client _ _ | .committing client _
  | .rollingBack client _ | .releasing client _ _ => some client

/-- The request that a call sends next. -/
def Phase.command (tenantId : JsString) : Phase κ β γ ε ω → Option (Nat × Command κ β γ ε)
  | .connected client => some (client, .begin)
  | .begun client => some (client, .setTenant (tenantId.map lowerUnit))
  | .operating client statement _ => some (client, .statement statement)
  | .committing client _ => some (client, .commit)
  | .rollingBack client _ => some (client, .rollback)
  | _ => none

/-- The call goes on with its work. -/
def operated (client : Nat) : Operation κ β γ ε ω → Phase κ β γ ε ω
  | .finish (.ok result) => .committing client result
  | .finish (.error error) => .rollingBack client error
  | .query statement next => .operating client statement next

/-- The call goes on after a reply. -/
def Phase.replied (operation : Operation κ β γ ε ω) (reply : Reply γ ε) :
    Phase κ β γ ε ω → Phase κ β γ ε ω
  | .connected client =>
      match reply with
      | .ok _ => .begun client
      | .error error => .rollingBack client error
  | .begun client =>
      match reply with
      | .ok _ => operated client operation
      | .error error => .rollingBack client error
  | .operating client _ next => operated client (next reply)
  | .committing client result =>
      match reply with
      | .ok _ => .releasing client (.ok result) false
      | .error error => .rollingBack client error
  | .rollingBack client error =>
      match reply with
      | .ok _ => .releasing client (.error error) false
      | .error _ => .releasing client (.error error) true
  | phase => phase

/-- `client.release`: a poisoned connection is destroyed. -/
def released (poisoned : Bool) : Connection κ β → Connection κ β
  | .held session => if poisoned then .destroyed else .pooled session
  | connection => connection

/-! ### The session of a call -/

/-- A transaction under the tenant setting, with changes of the tenant only, or an aborted one. -/
def Working (tenantId : JsString) (session : Session κ β) : Prop :=
  session = .aborted ∨ ∃ written, session = .inTransaction (some (tenantId.map lowerUnit)) written ∧
    ∀ change ∈ written, uuidValue tenantId = some change.tenant

/-- The session that a call holds where it is. -/
def Fits (tenantId : JsString) (session : Session κ β) : Phase κ β γ ε ω → Prop
  | .connected _ => session = .idle
  | .begun _ => session = .inTransaction none []
  | .operating _ _ _ | .committing _ _ => Working tenantId session
  | .rollingBack _ _ => session = .idle ∨ session = .inTransaction none [] ∨
      Working tenantId session
  | .releasing _ _ poisoned => poisoned = false → session = .idle
  | .waiting | .finished _ => True

theorem fits_operated {tenantId : JsString} {session : Session κ β} (client : Nat)
    (h : Working tenantId session) (operation : Operation κ β γ ε ω) :
    Fits tenantId session (operated client operation) := by
  unfold operated
  split
  · exact h
  · exact .inr (.inr h)
  · exact h

theorem client_operated (client : Nat) (operation : Operation κ β γ ε ω) :
    (operated client operation).client = some client := by
  unfold operated
  split <;> rfl

theorem client_of_command {tenantId : JsString} {phase : Phase κ β γ ε ω} {client : Nat}
    {command : Command κ β γ ε} (h : phase.command tenantId = some (client, command)) :
    phase.client = some client := by
  unfold Phase.command at h
  split at h <;> cases h <;> rfl

end Calls

/-! ## The system -/

structure State (ι κ β γ ε ω : Type) where
  rows : Rows κ β
  connections : Nat → Connection κ β
  phases : ι → Phase κ β γ ε ω

/-- The next step of a call, with the connection that the pool would give it. -/
structure Event (ι ε : Type) where
  call : ι
  connection : Nat
  fault : Fault ε

section Pool

variable {ι κ β γ ε ω : Type}

def start (rows : Rows κ β) : State ι κ β γ ε ω := ⟨rows, fun _ => .unused, fun _ => .waiting⟩

/-- The session that the pool gives away, where the connection is free. -/
def Connection.free : Connection κ β → Option (Session κ β)
  | .unused => some .idle
  | .pooled session => some session
  | _ => none

def putConnection (state : State ι κ β γ ε ω) (client : Nat) (connection : Connection κ β) :
    State ι κ β γ ε ω :=
  { state with connections := Function.update state.connections client connection }

section Frames

variable {state : State ι κ β γ ε ω} {client other : Nat} {connection : Connection κ β}

@[simp] theorem putConnection_phases :
    (putConnection state client connection).phases = state.phases := rfl

@[simp] theorem putConnection_rows :
    (putConnection state client connection).rows = state.rows := rfl

@[simp] theorem putConnection_self :
    (putConnection state client connection).connections client = connection :=
  Function.update_self _ _ _

theorem putConnection_other (h : other ≠ client) :
    (putConnection state client connection).connections other = state.connections other :=
  Function.update_of_ne h _ _

end Frames

/-! ### The pool -/

variable (calls : Calls ι κ β γ ε ω)

/-- Pooled sessions are idle, and a held connection is held by one call, in a session that fits. -/
structure Inv (state : State ι κ β γ ε ω) : Prop where
  pooled : ∀ client session, state.connections client = .pooled session → session = .idle
  holds : ∀ call client, (state.phases call).client = some client →
    ∃ session, state.connections client = .held session ∧
      Fits (calls.tenantId call) session (state.phases call)
  alone : ∀ call other client, (state.phases call).client = some client →
    (state.phases other).client = some client → call = other
  held : ∀ client session, state.connections client = .held session →
    ∃ call, (state.phases call).client = some client

theorem inv_start (rows : Rows κ β) : Inv calls (start rows) :=
  ⟨(fun _ _ h => by cases h), (fun _ _ h => by cases h), (fun _ _ _ h => by cases h),
    (fun _ _ h => by cases h)⟩

variable [DecidableEq ι]

def enter (state : State ι κ β γ ε ω) (call : ι) (phase : Phase κ β γ ε ω) : State ι κ β γ ε ω :=
  { state with phases := Function.update state.phases call phase }

section Keep

variable {calls} {state : State ι κ β γ ε ω} {call other : ι} {client : Nat}
  {phase : Phase κ β γ ε ω} {connection : Connection κ β}

@[simp] theorem enter_connections : (enter state call phase).connections = state.connections := rfl

@[simp] theorem enter_rows : (enter state call phase).rows = state.rows := rfl

@[simp] theorem enter_self : (enter state call phase).phases call = phase :=
  Function.update_self _ _ _

theorem enter_other (h : other ≠ call) :
    (enter state call phase).phases other = state.phases other := Function.update_of_ne h _ _

omit [DecidableEq ι] in
theorem inv_rows (h : Inv calls state) (rows : Rows κ β) : Inv calls { state with rows := rows } :=
  ⟨h.pooled, h.holds, h.alone, h.held⟩

/-- A call takes a connection that no call holds, or goes on with its own. -/
theorem inv_holding (h : Inv calls state) {session : Session κ β}
    (hown : ∀ other, (state.phases other).client = some client → other = call)
    (hclient : ∀ client', (state.phases call).client = some client' → client' = client)
    (hphase : phase.client = some client) (hfits : Fits (calls.tenantId call) session phase) :
    Inv calls (enter (putConnection state client (.held session)) call phase) := by
  refine ⟨fun client' session' hpooled => ?_, fun other client' hother => ?_,
    fun one two client' hone htwo => ?_, fun client' session' hheld => ?_⟩
  · by_cases hsame : client' = client
    · subst hsame
      rw [enter_connections, putConnection_self] at hpooled
      cases hpooled
    · rw [enter_connections, putConnection_other hsame] at hpooled
      exact h.pooled client' session' hpooled
  · by_cases hcall : other = call
    · subst hcall
      rw [enter_self] at hother ⊢
      obtain rfl := Option.some.inj (hphase.symm.trans hother)
      exact ⟨session, putConnection_self, hfits⟩
    · rw [enter_other hcall] at hother ⊢
      have hne : client' ≠ client := fun hsame => hcall (hown other (hsame ▸ hother))
      rw [enter_connections, putConnection_other hne]
      exact h.holds other client' hother
  · by_cases honecall : one = call <;> by_cases htwocall : two = call
    · rw [honecall, htwocall]
    · subst honecall
      rw [enter_self, hphase] at hone
      obtain rfl := Option.some.inj hone
      rw [enter_other htwocall] at htwo
      exact (hown two htwo).symm
    · subst htwocall
      rw [enter_self, hphase] at htwo
      obtain rfl := Option.some.inj htwo
      rw [enter_other honecall] at hone
      exact hown one hone
    · rw [enter_other honecall] at hone
      rw [enter_other htwocall] at htwo
      exact h.alone one two client' hone htwo
  · by_cases hsame : client' = client
    · exact ⟨call, by rw [enter_self, hphase, hsame]⟩
    · rw [enter_connections, putConnection_other hsame] at hheld
      obtain ⟨holder, hholder⟩ := h.held client' session' hheld
      refine ⟨holder, ?_⟩
      rw [enter_other]
      · exact hholder
      · rintro rfl
        exact hsame (hclient client' hholder)

/-- A call lets its connection go. -/
theorem inv_released (h : Inv calls state) (hclient : (state.phases call).client = some client)
    (hconnection : connection = .destroyed ∨ connection = .pooled .idle)
    (outcome : Except (Thrown ε) ω) :
    Inv calls (enter (putConnection state client connection) call (.finished outcome)) := by
  have hnot : ∀ session, connection ≠ .held session := by
    rcases hconnection with rfl | rfl <;> simp
  refine ⟨fun client' session' hpooled => ?_, fun other client' hother => ?_,
    fun one two client' hone htwo => ?_, fun client' session' hheld => ?_⟩
  · by_cases hsame : client' = client
    · subst hsame
      rw [enter_connections, putConnection_self] at hpooled
      rcases hconnection with rfl | rfl
      · cases hpooled
      · cases hpooled
        rfl
    · rw [enter_connections, putConnection_other hsame] at hpooled
      exact h.pooled client' session' hpooled
  · by_cases hcall : other = call
    · subst hcall
      rw [enter_self] at hother
      cases hother
    · rw [enter_other hcall] at hother ⊢
      have hne : client' ≠ client := by
        rintro rfl
        exact hcall (h.alone other call client' hother hclient)
      rw [enter_connections, putConnection_other hne]
      exact h.holds other client' hother
  · have hcalls : ∀ one, ((enter (putConnection state client connection) call
        (.finished outcome)).phases one).client = some client' → one ≠ call := by
      rintro one hone rfl
      rw [enter_self] at hone
      cases hone
    rw [enter_other (hcalls one hone)] at hone
    rw [enter_other (hcalls two htwo)] at htwo
    exact h.alone one two client' hone htwo
  · have hsame : client' ≠ client := by
      rintro rfl
      rw [enter_connections, putConnection_self] at hheld
      exact hnot session' hheld
    rw [enter_connections, putConnection_other hsame] at hheld
    obtain ⟨holder, hholder⟩ := h.held client' session' hheld
    refine ⟨holder, ?_⟩
    rw [enter_other]
    · exact hholder
    · rintro rfl
      exact hsame (Option.some.inj (hholder.symm.trans hclient))

/-- A call ends that has no connection. -/
theorem inv_failed (h : Inv calls state) (hwaiting : state.phases call = .waiting)
    (outcome : Except (Thrown ε) ω) : Inv calls (enter state call (.finished outcome)) := by
  have hclient : ∀ other, ((enter state call (.finished outcome)).phases other).client =
      (state.phases other).client := by
    intro other
    by_cases hcall : other = call
    · subst hcall
      rw [enter_self, hwaiting]
      rfl
    · rw [enter_other hcall]
  refine ⟨h.pooled, fun other client hother => ?_, fun one two client hone htwo => ?_,
    fun client session hheld => ?_⟩
  · have hcall : other ≠ call := by
      rintro rfl
      rw [enter_self] at hother
      cases hother
    rw [hclient] at hother
    rw [enter_other hcall]
    exact h.holds other client hother
  · rw [hclient] at hone htwo
    exact h.alone one two client hone htwo
  · obtain ⟨holder, hholder⟩ := h.held client session hheld
    exact ⟨holder, (hclient holder).trans hholder⟩

theorem not_held_of_free {session : Session κ β} (h : connection.free = some session) :
    (∀ other, connection ≠ .held other) ∧
      (connection = .unused ∧ session = .idle ∨ connection = .pooled session) := by
  cases connection with
  | unused =>
      cases h
      exact ⟨by simp, .inl ⟨rfl, rfl⟩⟩
  | pooled session' =>
      cases h
      exact ⟨by simp, .inr rfl⟩
  | held session' => cases h
  | destroyed => cases h

end Keep

end Pool

section System

variable {ι κ β γ ε ω : Type} [DecidableEq ι] [DecidableEq κ]

/-! ### Steps -/

variable (calls : Calls ι κ β γ ε ω)

/-- `pool.connect`, for a tenant that is one. -/
def connect (state : State ι κ β γ ε ω) (event : Event ι ε) : State ι κ β γ ε ω :=
  if (uuidValue (calls.tenantId event.call)).isNone then
    enter state event.call (.finished (.error .invalidTenantContext))
  else match event.fault.error with
    | some error => enter state event.call (.finished (.error (.database error)))
    | none =>
        match (state.connections event.connection).free with
        | some session => enter (putConnection state event.connection (.held session)) event.call
            (.connected event.connection)
        | none => state

/-- A request of a call on the connection that it holds. -/
def request (state : State ι κ β γ ε ω) (event : Event ι ε) (client : Nat)
    (command : Command κ β γ ε) : State ι κ β γ ε ω :=
  match state.connections client with
  | .held session =>
      let (reply, session, rows) := exchange state.rows session command event.fault
      enter (putConnection { state with rows := rows } client (.held session)) event.call
        ((state.phases event.call).replied (calls.operation event.call) reply)
  | _ => state

/-- One step of a call. -/
def step (state : State ι κ β γ ε ω) (event : Event ι ε) : State ι κ β γ ε ω :=
  match state.phases event.call with
  | .waiting => connect calls state event
  | .finished _ => state
  | .releasing client outcome poisoned =>
      enter (putConnection state client (released poisoned (state.connections client)))
        event.call (.finished outcome)
  | phase =>
      match phase.command (calls.tenantId event.call) with
      | some (client, command) => request calls state event client command
      | none => state

/-- What a step can do. -/
inductive Steps (state : State ι κ β γ ε ω) (event : Event ι ε) : State ι κ β γ ε ω → Prop
  | stays : Steps state event state
  | fails (error : Thrown ε) (hwaiting : state.phases event.call = .waiting) :
      Steps state event (enter state event.call (.finished (.error error)))
  | connects (session : Session κ β) (hwaiting : state.phases event.call = .waiting)
      (hvalid : (uuidValue (calls.tenantId event.call)).isSome)
      (hclear : event.fault.error = none)
      (hfree : (state.connections event.connection).free = some session) :
      Steps state event (enter (putConnection state event.connection (.held session)) event.call
        (.connected event.connection))
  | requests (client : Nat) (command : Command κ β γ ε) (session : Session κ β)
      (hcommand : (state.phases event.call).command (calls.tenantId event.call) =
        some (client, command))
      (hheld : state.connections client = .held session) :
      Steps state event (enter (putConnection
        { state with rows := (exchange state.rows session command event.fault).2.2 } client
          (.held (exchange state.rows session command event.fault).2.1)) event.call
        ((state.phases event.call).replied (calls.operation event.call)
          (exchange state.rows session command event.fault).1))
  | releases (client : Nat) (outcome : Except (Thrown ε) ω) (poisoned : Bool)
      (hreleasing : state.phases event.call = .releasing client outcome poisoned) :
      Steps state event (enter (putConnection state client
        (released poisoned (state.connections client))) event.call (.finished outcome))

theorem steps_connect (state : State ι κ β γ ε ω) (event : Event ι ε)
    (hwaiting : state.phases event.call = .waiting) :
    Steps calls state event (connect calls state event) := by
  unfold connect
  split_ifs with hinvalid
  · exact .fails _ hwaiting
  · split
    · exact .fails _ hwaiting
    · rename_i hclear
      split
      · rename_i session hfree
        exact .connects session hwaiting
          (by simpa [Option.isSome_iff_ne_none] using hinvalid) hclear hfree
      · exact .stays

theorem steps_request (state : State ι κ β γ ε ω) (event : Event ι ε) {client : Nat}
    {command : Command κ β γ ε}
    (hcommand : (state.phases event.call).command (calls.tenantId event.call) =
      some (client, command)) :
    Steps calls state event (request calls state event client command) := by
  unfold request
  split
  · rename_i session hheld
    exact .requests client command session hcommand hheld
  · exact .stays

theorem steps_step (state : State ι κ β γ ε ω) (event : Event ι ε) :
    Steps calls state event (step calls state event) := by
  unfold step
  split
  · rename_i hwaiting
    exact steps_connect calls state event hwaiting
  · exact .stays
  · rename_i client outcome poisoned hreleasing
    exact .releases client outcome poisoned hreleasing
  · split
    · rename_i client command hcommand
      exact steps_request calls state event hcommand
    · exact .stays

/-! ## Requests -/

theorem currentTenantId_lower (tenantId : JsString) :
    currentTenantId (some (tenantId.map lowerUnit)) = uuidValue tenantId :=
  uuidValue_lower tenantId

/-- A statement keeps to its tenant. -/
theorem working_statement {tenantId : JsString} {session : Session κ β} (rows : Rows κ β)
    (statement : Statement κ β γ ε) (h : Working tenantId session) (fault : Fault ε) :
    Working tenantId (exchange rows session (.statement statement) fault).2.1 := by
  have hserved : Working tenantId (serve rows session (.statement statement)).2.1 := by
    rcases h with rfl | ⟨written, rfl, hwritten⟩
    · exact .inl rfl
    · unfold serve
      simp only [currentTenantId_lower]
      split
      · exact .inl rfl
      · split_ifs with hchanges
        · refine .inr ⟨_, rfl, fun change hchange => ?_⟩
          rcases List.mem_append.mp hchange with hold | hnew
          · exact hwritten change hold
          · exact hchanges change hnew
        · exact .inl rfl
  cases fault with
  | none => exact hserved
  | refused error =>
      rcases h with rfl | ⟨written, rfl, -⟩
      · exact .inl rfl
      · exact .inl rfl
  | unsent error => exact h
  | unheard error => exact hserved

/-- The session fits after every request. -/
theorem fits_replied {tenantId : JsString} {session : Session κ β} {phase : Phase κ β γ ε ω}
    {client : Nat} {command : Command κ β γ ε} (rows : Rows κ β) (fault : Fault ε)
    (operation : Operation κ β γ ε ω) (hfits : Fits tenantId session phase)
    (hcommand : phase.command tenantId = some (client, command)) :
    Fits tenantId (exchange rows session command fault).2.1
        (phase.replied operation (exchange rows session command fault).1) ∧
      (phase.replied operation (exchange rows session command fault).1).client = some client := by
  cases phase with
  | waiting => cases hcommand
  | finished outcome => cases hcommand
  | releasing client outcome poisoned => cases hcommand
  | connected client =>
      cases hcommand
      obtain rfl : session = .idle := hfits
      cases fault with
      | none => exact ⟨rfl, rfl⟩
      | refused error => exact ⟨.inl rfl, rfl⟩
      | unsent error => exact ⟨.inl rfl, rfl⟩
      | unheard error => exact ⟨.inr (.inl rfl), rfl⟩
  | begun client =>
      cases hcommand
      obtain rfl : session = .inTransaction none [] := hfits
      have hset : Working tenantId
          (.inTransaction (some (tenantId.map lowerUnit)) [] : Session κ β) :=
        .inr ⟨[], rfl, by simp⟩
      cases fault with
      | none => exact ⟨fits_operated client hset operation, client_operated client operation⟩
      | refused error => exact ⟨.inr (.inr (.inl rfl)), rfl⟩
      | unsent error => exact ⟨.inr (.inl rfl), rfl⟩
      | unheard error => exact ⟨.inr (.inr hset), rfl⟩
  | operating client statement next =>
      cases hcommand
      exact ⟨fits_operated client (working_statement rows statement hfits fault) _,
        client_operated client _⟩
  | committing client result =>
      cases hcommand
      have hidle : (serve rows session (.commit : Command κ β γ ε)).2.1 = .idle := by
        cases session <;> rfl
      have hreply : (serve rows session (.commit : Command κ β γ ε)).1 = .ok none := by
        cases session <;> rfl
      cases fault with
      | none =>
          rw [exchange, hreply]
          exact ⟨fun _ => hidle, rfl⟩
      | refused error =>
          refine ⟨.inl ?_, rfl⟩
          cases session <;> rfl
      | unsent error => exact ⟨.inr (.inr hfits), rfl⟩
      | unheard error => exact ⟨.inl hidle, rfl⟩
  | rollingBack client error =>
      cases hcommand
      cases fault with
      | none => exact ⟨fun _ => rfl, rfl⟩
      | refused error => exact ⟨(fun h => by cases h), rfl⟩
      | unsent error => exact ⟨(fun h => by cases h), rfl⟩
      | unheard error => exact ⟨(fun h => by cases h), rfl⟩

variable {calls}

theorem Steps.inv {state after : State ι κ β γ ε ω} {event : Event ι ε}
    (hsteps : Steps calls state event after) (h : Inv calls state) : Inv calls after := by
  cases hsteps with
  | stays => exact h
  | fails error hwaiting => exact inv_failed h hwaiting _
  | connects session hwaiting hvalid hclear hfree =>
      obtain ⟨hnot, hsession⟩ := not_held_of_free hfree
      have hidle : session = .idle := by
        rcases hsession with ⟨-, hidle⟩ | hpooled
        · exact hidle
        · exact h.pooled _ _ hpooled
      refine inv_holding h (fun other hother => ?_) (fun client' hclient' => ?_) rfl hidle
      · obtain ⟨session', hheld, -⟩ := h.holds other _ hother
        exact absurd hheld (hnot session')
      · rw [hwaiting] at hclient'
        cases hclient'
  | requests client command session hcommand hheld =>
      have hclient := client_of_command hcommand
      obtain ⟨session', hheld', hfits⟩ := h.holds event.call client hclient
      obtain rfl : session = session' := by
        rw [hheld] at hheld'
        cases hheld'
        rfl
      obtain ⟨hfits', hclient'⟩ := fits_replied state.rows event.fault
        (calls.operation event.call) hfits hcommand
      refine inv_holding (inv_rows h _) (fun other hother => ?_) (fun client' hother => ?_)
        hclient' hfits'
      · exact h.alone other event.call client hother hclient
      · exact Option.some.inj (hother.symm.trans hclient)
  | releases client outcome poisoned hreleasing =>
      have hclient : (state.phases event.call).client = some client := by
        rw [hreleasing]
        rfl
      obtain ⟨session, hheld, hfits⟩ := h.holds event.call client hclient
      rw [hreleasing] at hfits
      refine inv_released h hclient ?_ outcome
      rw [hheld, released]
      cases poisoned with
      | false => exact .inr (by rw [hfits rfl]; rfl)
      | true => exact .inl rfl

theorem inv_step (state : State ι κ β γ ε ω) (event : Event ι ε) (h : Inv calls state) :
    Inv calls (step calls state event) :=
  (steps_step calls state event).inv h

end System

end TenantTransactions
