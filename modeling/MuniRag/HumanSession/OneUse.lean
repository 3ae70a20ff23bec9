import MuniRag.HumanSession.Effects

/-!
# Login states and codes are used once

Each consumption of a login state is paid for by a login transaction with the same
cookie, provider and expiry, and each session of generation 1 by a consumption: the
login transactions that are left and the callbacks that are under way are what is
still to be spent.  A claimed code stays claimed until its retention has passed.
-/

namespace HumanSession

open Results

def Entry.creates (ticket : Ticket) : Entry → Bool
  | .created other => other = ticket
  | _ => false

def Entry.consumes (ticket : Ticket) : Entry → Bool
  | .consumed other _ => other = ticket
  | _ => false

def Entry.consumesState (state : Bytes) : Entry → Bool
  | .consumed ticket _ => ticket.stateSha256 = state
  | _ => false

def Entry.opensFor (state : Bytes) : Entry → Bool
  | .opened other _ => other = state
  | _ => false

/-- A login transaction that is still to be consumed. -/
def LoginTransaction.unspent (ticket : Ticket) (row : LoginTransaction) : Bool :=
  row.ticket = ticket ∧ row.consumedAt = none

/-- The callbacks between the consumption of a state and their session. -/
def Request.awaits (state : Bytes) (request : Request) : Bool := request.pending = some state

/-- Every consumption and every first session is paid for. -/
structure StatesPaid (system : System) : Prop where
  tickets : ∀ ticket, system.db.loginTransactions.countP (·.unspent ticket) +
    system.log.countP (·.consumes ticket) ≤ system.log.countP (·.creates ticket)
  inTime : ∀ ticket now, .consumed ticket now ∈ system.log → now < ticket.expiresAt
  sessions : ∀ state, system.log.countP (·.opensFor state) +
    system.requests.countP (·.awaits state) ≤ system.log.countP (·.consumesState state)

variable {config : Config} {host : Host} {system : System} {request next : Request}
variable {db : Database} {state : Bytes} {ticket : Ticket}

/-! ## Counting -/

/-- One request takes its next step. -/
theorem countP_set_request (next : Request) {requests : List Request} {index : Nat}
    (hrequest : requests[index]? = some request) (p : Request → Bool) :
    (requests.set index next).countP p + (if p request then 1 else 0) =
      requests.countP p + (if p next then 1 else 0) := by
  obtain ⟨hindex, hget⟩ := List.getElem?_eq_some_iff.mp hrequest
  rw [List.countP_set hindex, hget]
  by_cases hp : p request
  · have hpositive : 0 < requests.countP p :=
      List.countP_pos_iff.mpr ⟨request, List.mem_of_getElem? hrequest, hp⟩
    simp only [hp, if_true]
    omega
  · simp [hp]

/-- What is consumed is no longer unspent. -/
theorem countP_consume (ticket : Ticket) (input : ConsumeInput) (clock : Instant) (rows : List LoginTransaction) :
    (Table.updateWhere (·.consumable input clock) (·.consume input) rows).countP
          (·.unspent ticket) +
        (rows.filter (·.consumable input clock)).countP (·.ticket = ticket) =
      rows.countP (·.unspent ticket) := by
  induction rows with
  | nil => rfl
  | cons row rows ih =>
      simp only [Table.updateWhere, List.map_cons, List.countP_cons, List.filter_cons] at ih ⊢
      by_cases hconsumable : row.consumable input clock
      · have hunspent : (row.consume input).unspent ticket = false := by
          simp [LoginTransaction.unspent, LoginTransaction.consume]
        have hbefore : row.unspent ticket = decide (row.ticket = ticket) := by
          simp [LoginTransaction.unspent, hconsumable.2.2.2.1]
        simp only [hconsumable, decide_true, if_true, List.countP_cons, hunspent, hbefore]
        simp only [Bool.false_eq_true, if_false]
        omega
      · simp only [hconsumable, if_false, decide_false, Bool.false_eq_true]
        omega

theorem countP_entries {p : Entry → Bool} {entries : List Entry}
    (h : ∀ entry ∈ entries, p entry = false) : entries.countP p = 0 := by
  rw [List.countP_eq_zero]
  intro entry hentry
  simp [h entry hentry]

/-! ## One step -/

/-- Entries that are no consumption, no creation and no session. -/
def Entry.isForeign : Entry → Bool
  | .created _ | .consumed _ _ | .opened _ _ => false
  | _ => true

/-- A step that leaves the login transactions alone and awaits no other state than
before. -/
theorem StatesPaid.frame (h : StatesPaid system) {index : Nat} {outcome : Outcome}
    (hrequest : system.requests[index]? = some request)
    (hrows : outcome.db.loginTransactions = system.db.loginTransactions)
    (hentries : ∀ entry ∈ outcome.entries, entry.isForeign = true)
    (hnext : outcome.request.pending = none ∨ outcome.request.pending = request.pending) :
    StatesPaid {
      db := outcome.db, requests := system.requests.set index outcome.request
      log := outcome.entries ++ system.log } := by
  have hzero : ∀ (p : Entry → Bool), (∀ entry : Entry, entry.isForeign = true → p entry = false) →
      (outcome.entries ++ system.log).countP p = system.log.countP p := by
    intro p hp
    rw [List.countP_append, countP_entries fun entry hentry => hp entry (hentries entry hentry),
      Nat.zero_add]
  refine ⟨fun ticket => ?_, fun ticket now hmem => ?_, fun state => ?_⟩
  · rw [hrows, hzero _ (by rintro (_ | _) <;> simp [Entry.isForeign, Entry.consumes]),
      hzero _ (by rintro (_ | _) <;> simp [Entry.isForeign, Entry.creates])]
    exact h.tickets ticket
  · rcases List.mem_append.mp hmem with hnew | hold
    · exact absurd (hentries _ hnew) (by simp [Entry.isForeign])
    · exact h.inTime ticket now hold
  · rw [hzero _ (by rintro (_ | _) <;> simp [Entry.isForeign, Entry.opensFor]),
      hzero _ (by rintro (_ | _) <;> simp [Entry.isForeign, Entry.consumesState])]
    have hcount := countP_set_request outcome.request hrequest (·.awaits state)
    have hless : (if outcome.request.awaits state then 1 else 0) ≤
        (if request.awaits state then 1 else 0) := by
      rcases hnext with hnone | hsame
      · simp [Request.awaits, hnone]
      · simp [Request.awaits, hsame]
    have hpaid := h.sessions state
    dsimp only at hcount ⊢
    omega

/-- The entries of a consumption, counted. -/
theorem countP_consumed (p : Ticket → Bool) (rows : List LoginTransaction) (now : Instant)
    {q : Entry → Bool} (hq : ∀ ticket, q (.consumed ticket now) = p ticket) :
    (rows.map fun row => Entry.consumed row.ticket now).countP q =
      rows.countP (fun row => p row.ticket) := by
  rw [List.countP_map]
  refine List.countP_congr fun row _ => ?_
  rw [Function.comp_apply, hq]

theorem StatesPaid.consumed (h : StatesPaid system) {index : Nat} {clock : Instant}
    {input : ConsumeInput} {out : Database × List LoginTransaction}
    (hrequest : system.requests[index]? = some request)
    (hcall : system.db.consumeHumanLoginTransaction host clock input = .ok out)
    (hbefore : request.pending = none)
    (hnext : ∀ state, next.pending = some state → state = input.stateSha256 ∧ out.2.length = 1) :
    StatesPaid {
      db := out.1, requests := system.requests.set index next
      log := (out.2.map fun row => .consumed row.ticket input.now) ++ system.log } := by
  obtain ⟨_, hafter, hrows⟩ := Database.consumeHumanLoginTransaction_ok.mp hcall
  refine ⟨fun ticket => ?_, fun ticket now hmem => ?_, fun state => ?_⟩
  · have hspent := countP_consume ticket input clock system.db.loginTransactions
    have hentries : (out.2.map fun row => Entry.consumed row.ticket input.now).countP
        (·.consumes ticket) =
          (system.db.loginTransactions.filter (·.consumable input clock)).countP
            (·.ticket = ticket) := by
      rw [countP_consumed (· = ticket) out.2 input.now fun _ => rfl, hrows, List.countP_map]
      rfl
    have hnone : (out.2.map fun row => Entry.consumed row.ticket input.now).countP
        (·.creates ticket) = 0 := by
      refine countP_entries fun entry hentry => ?_
      obtain ⟨row, _, rfl⟩ := List.mem_map.mp hentry
      rfl
    have hpaid := h.tickets ticket
    rw [List.countP_append, List.countP_append, hentries, hnone, hafter]
    dsimp only
    omega
  · rcases List.mem_append.mp hmem with hnew | hold
    · obtain ⟨row, hrow, hentry⟩ := List.mem_map.mp hnew
      rw [hrows] at hrow
      obtain ⟨stored, hstored, rfl⟩ := List.mem_map.mp hrow
      have hconsumable := of_decide_eq_true (List.mem_filter.mp hstored).2
      obtain ⟨rfl, rfl⟩ := Entry.consumed.inj hentry
      exact hconsumable.2.2.2.2.1
    · exact h.inTime ticket now hold
  · have hpaid := h.sessions state
    have hcount := countP_set_request next hrequest (·.awaits state)
    have hnotOpen : (out.2.map fun row => Entry.consumed row.ticket input.now).countP
        (·.opensFor state) = 0 := by
      refine countP_entries fun entry hentry => ?_
      obtain ⟨row, _, rfl⟩ := List.mem_map.mp hentry
      rfl
    have hawaited : (if next.awaits state then 1 else 0) ≤
        (out.2.map fun row => Entry.consumed row.ticket input.now).countP
          (·.consumesState state) := by
      split_ifs with hawaits
      · obtain ⟨hstate, hlength⟩ := hnext state (of_decide_eq_true hawaits)
        rw [countP_consumed (·.stateSha256 = state) out.2 input.now fun _ => rfl]
        obtain ⟨row, hout⟩ := List.length_eq_one_iff.mp hlength
        have hrow : row ∈ out.2 := by simp [hout]
        rw [hrows] at hrow
        obtain ⟨stored, hstored, rfl⟩ := List.mem_map.mp hrow
        have hconsumable := of_decide_eq_true (List.mem_filter.mp hstored).2
        have hsame : (stored.consume input).ticket.stateSha256 = state :=
          hconsumable.1.trans hstate.symm
        simp [hout, hsame]
      · exact Nat.zero_le _
    have hbefore' : (if request.awaits state then 1 else 0) = 0 := by
      simp [Request.awaits, hbefore]
    rw [List.countP_append, List.countP_append, hnotOpen]
    dsimp only at hcount ⊢
    omega

theorem StatesPaid.opened (h : StatesPaid system) {index : Nat} {after : Database} {id : Uuid}
    (hrequest : system.requests[index]? = some request)
    (hrows : after.loginTransactions = system.db.loginTransactions)
    (hbefore : request.pending = some state) (hnext : next.pending = none) :
    StatesPaid {
      db := after, requests := system.requests.set index next
      log := [.opened state id] ++ system.log } := by
  refine ⟨fun ticket => ?_, fun ticket now hmem => ?_, fun other => ?_⟩
  · have hpaid := h.tickets ticket
    rw [hrows]
    simpa [Entry.consumes, Entry.creates] using hpaid
  · rcases List.mem_cons.mp hmem with hnew | hold
    · cases hnew
    · exact h.inTime ticket now hold
  · have hpaid := h.sessions other
    have hcount := countP_set_request next hrequest (·.awaits other)
    have hafter : (if next.awaits other then 1 else 0) = 0 := by simp [Request.awaits, hnext]
    have hused : (if (Entry.opened state id).opensFor other then 1 else 0) ≤
        (if request.awaits other then 1 else 0) := by
      simp [Request.awaits, hbefore, Entry.opensFor]
    have hnot : (Entry.opened state id).consumesState other = false := rfl
    simp only [List.singleton_append, List.countP_cons, hnot, Bool.false_eq_true, if_false]
    omega

/-- The login transactions only change by logins and consumptions. -/
theorem insertSession_loginTransactions {row : SessionRow} {after : Database}
    (h : db.insertSession row = .ok after) : after.loginTransactions = db.loginTransactions := by
  obtain ⟨_, _, _, rfl⟩ := Database.insertSession_ok.mp h
  rfl

theorem updateSessions_loginTransactions {p : SessionRow → Prop} [DecidablePred p]
    {f : SessionRow → SessionRow} {after : Database} (h : db.updateSessions p f = .ok after) :
    after.loginTransactions = db.loginTransactions := by
  obtain ⟨_, rfl⟩ := Database.updateSessions_ok.mp h
  rfl

theorem claim_loginTransactions (db : Database) (clock : Instant) (providerId : JsString)
    (codeSha256 : Bytes) (expiresAt : Instant) :
    (db.claimHumanAuthorizationCode clock providerId codeSha256 expiresAt).1.loginTransactions =
      db.loginTransactions := by
  rcases db.claimHumanAuthorizationCode_cases clock providerId codeSha256 expiresAt with
    hout | hout | ⟨_, _, hout⟩
  all_goals rw [hout]

theorem statesPaid_effect (h : StatesPaid system) {index : Nat} {outcome : Outcome}
    (hrequest : system.requests[index]? = some request)
    (heffect : Effect host system.db request outcome) :
    StatesPaid {
      db := outcome.db, requests := system.requests.set index outcome.request
      log := outcome.entries ++ system.log } := by
  cases heffect with
  | idle next hnext => exact h.frame hrequest rfl (fun _ hentry => nomatch hentry) (.inl hnext)
  | consumed clock input next hcall hbefore hnext =>
      exact h.consumed hrequest hcall hbefore hnext
  | claimed clock providerId codeSha256 expiresAt next hnext =>
      refine h.frame hrequest (claim_loginTransactions ..) (fun entry hentry => ?_) hnext
      obtain rfl := List.mem_singleton.mp hentry
      rfl
  | opened next hbefore hnext _ _ hinsert =>
      exact h.opened hrequest (insertSession_loginTransactions hinsert) hbefore hnext
  | authenticated token next hnext =>
      refine h.frame hrequest rfl (fun entry hentry => ?_) (.inl hnext)
      obtain rfl := List.mem_singleton.mp hentry
      rfl
  | rotated input next hnext _ _ hinsert hupdate =>
      refine h.frame hrequest ?_ (fun entry hentry => ?_) (.inl hnext)
      · exact (updateSessions_loginTransactions hupdate).trans
          (insertSession_loginTransactions hinsert)
      · obtain rfl := List.mem_singleton.mp hentry
        rfl
  | revoked clock token revokedAt next hnext _ _ hupdate hentries =>
      refine h.frame hrequest (updateSessions_loginTransactions hupdate) (fun entry hentry => ?_)
        (.inl hnext)
      dsimp only at hentry
      rcases hentries with rfl | rfl
      · obtain rfl := List.mem_singleton.mp hentry
        rfl
      · rcases List.mem_cons.mp hentry with rfl | hrest
        · rfl
        · obtain rfl := List.mem_singleton.mp hrest
          rfl

/-- A new request awaits nothing. -/
theorem statesPaid_arrival (h : StatesPaid system) (hnew : request.pending = none) :
    StatesPaid { system with requests := system.requests ++ [request] } := by
  refine ⟨h.tickets, h.inTime, fun state => ?_⟩
  have hpaid := h.sessions state
  simpa [List.countP_append, Request.awaits, hnew] using hpaid

theorem statesPaid_step (h : StatesPaid system) (event : Event) :
    StatesPaid (system.step config host event) := by
  cases event with
  | login clock id input =>
      rw [System.step]
      split
      · next after created hcall =>
          obtain ⟨row, _, hstate, hbinding, hprovider, hexpires, hnew, hafter⟩ :=
            Database.createHumanLoginTransaction_ok hcall
          have hticket : row.ticket = {
              stateSha256 := input.stateSha256
              browserBindingSha256 := input.browserBindingSha256
              providerId := input.providerId, expiresAt := input.expiresAt } := by
            rw [LoginTransaction.ticket, hstate, hbinding, hprovider, hexpires]
          refine ⟨fun ticket => ?_, fun ticket now hmem => ?_, fun state => ?_⟩
          · have hpaid := h.tickets ticket
            have hkept : (system.db.loginTransactions.filter fun row =>
                ¬ (row.expiresAt ≤ clock ∨ ∃ at' ∈ row.consumedAt, at' < clock - minutes 10)).countP
                  (·.unspent ticket) ≤ system.db.loginTransactions.countP (·.unspent ticket) :=
              List.filter_sublist.countP_le
            have hone : (if row.unspent ticket then 1 else 0) =
                (if (Entry.created row.ticket).creates ticket then 1 else 0) := by
              simp [LoginTransaction.unspent, Entry.creates, hnew]
            rw [← hticket]
            dsimp only at hafter ⊢
            rw [hafter]
            have hnot : (Entry.created row.ticket).consumes ticket = false := rfl
            simp only [List.countP_append, List.countP_cons, List.countP_nil, hnot,
              Bool.false_eq_true, if_false]
            omega
          · rcases List.mem_cons.mp hmem with hnew | hold
            · cases hnew
            · exact h.inTime ticket now hold
          · have hpaid := h.sessions state
            simpa [Entry.opensFor, Entry.consumesState] using hpaid
      · exact h
  | callback input => exact statesPaid_arrival h rfl
  | renew input => exact statesPaid_arrival h rfl
  | logout input => exact statesPaid_arrival h rfl
  | advance index environment =>
      rw [System.step]
      split
      · next request hrequest =>
          exact statesPaid_effect h hrequest (act_effect config host environment _ request)
      · exact h

theorem statesPaid_opening : StatesPaid .opening where
  tickets := fun _ => Nat.le_refl 0
  inTime := fun _ _ hmem => nomatch hmem
  sessions := fun _ => Nat.le_refl 0

/-! ## Codes -/

/-- The retention of the last claim of a code, unless a claim has run since at or
after its end. -/
def heldUntil (providerId : JsString) (codeSha256 : Bytes) : List Entry → Option Instant
  | [] => none
  | .claim clock provider code expiresAt answer :: older =>
      if answer = true ∧ provider = providerId ∧ code = codeSha256 then some expiresAt
      else (heldUntil providerId codeSha256 older).filter fun limit => clock < limit
  | _ :: older => heldUntil providerId codeSha256 older

/-- Every claim that was answered yes found its code free. -/
def ClaimedOnce : List Entry → Prop
  | [] => True
  | .claim clock providerId codeSha256 _ answer :: older =>
      (answer = true → ∀ limit ∈ heldUntil providerId codeSha256 older, limit ≤ clock) ∧
        ClaimedOnce older
  | _ :: older => ClaimedOnce older

/-- A retention that is not over has its row. -/
structure CodesHeld (claims : List CodeClaim) (log : List Entry) : Prop where
  once : ClaimedOnce log
  stored : ∀ providerId codeSha256 limit, heldUntil providerId codeSha256 log = some limit →
    ∃ claim ∈ claims, claim.providerId = providerId ∧ claim.codeSha256 = codeSha256 ∧
      claim.expiresAt = limit

variable {claims : List CodeClaim} {log : List Entry}

def Entry.isClaim : Entry → Bool
  | .claim _ _ _ _ _ => true
  | _ => false

/-- Entries about something else. -/
theorem CodesHeld.frame (h : CodesHeld claims log) {entries : List Entry}
    (hentries : ∀ entry ∈ entries, entry.isClaim = false) : CodesHeld claims (entries ++ log) := by
  induction entries with
  | nil => exact h
  | cons entry entries ih =>
      obtain ⟨honce, hstored⟩ := ih fun other hother => hentries other (List.mem_cons_of_mem _ hother)
      have hentry := hentries entry List.mem_cons_self
      cases entry with
      | claim => cases hentry
      | created | consumed | opened | authenticated | rotated | revoked | loggedOut =>
          exact ⟨honce, hstored⟩

theorem CodesHeld.claimed (h : CodesHeld db.codeClaims log) (clock : Instant)
    (providerId : JsString) (codeSha256 : Bytes) (expiresAt : Instant) :
    CodesHeld (db.claimHumanAuthorizationCode clock providerId codeSha256 expiresAt).1.codeClaims
      (.claim clock providerId codeSha256 expiresAt
        (db.claimHumanAuthorizationCode clock providerId codeSha256 expiresAt).2 :: log) := by
  -- What a claim deletes had ended when it ran.
  have hkept : ∀ provider code limit,
      (heldUntil provider code log).filter (fun limit => clock < limit) = some limit →
      ∃ claim ∈ db.codeClaims.filter fun claim => clock < claim.expiresAt,
        claim.providerId = provider ∧ claim.codeSha256 = code ∧ claim.expiresAt = limit := by
    intro provider code limit hheld
    obtain ⟨hlimit, hlive⟩ := Option.filter_eq_some_iff.mp hheld
    obtain ⟨claim, hclaim, hprovider, hcode, rfl⟩ := h.stored provider code limit hlimit
    exact ⟨claim, List.mem_filter.mpr ⟨hclaim, hlive⟩, hprovider, hcode, rfl⟩
  rcases db.claimHumanAuthorizationCode_cases clock providerId codeSha256 expiresAt with
    hout | hout | ⟨hfresh, _, hout⟩
  · rw [hout]
    refine ⟨⟨nofun, h.once⟩, fun provider code limit hheld => ?_⟩
    rw [heldUntil, if_neg (by simp)] at hheld
    exact h.stored provider code limit (Option.filter_eq_some_iff.mp hheld).1
  · rw [hout]
    refine ⟨⟨nofun, h.once⟩, fun provider code limit hheld => ?_⟩
    rw [heldUntil, if_neg (by simp)] at hheld
    exact hkept provider code limit hheld
  · rw [hout]
    refine ⟨⟨fun _ limit hlimit => ?_, h.once⟩, fun provider code limit hheld => ?_⟩
    · obtain ⟨claim, hclaim, hprovider, hcode, rfl⟩ := h.stored _ _ limit hlimit
      by_contra hlater
      refine hfresh claim hclaim (not_le.mp hlater) ?_
      rw [hprovider, hcode]
    · rw [heldUntil] at hheld
      split_ifs at hheld with hsame
      · obtain ⟨_, rfl, rfl⟩ := hsame
        obtain rfl := Option.some.inj hheld
        exact ⟨_, List.mem_append_right _ List.mem_cons_self, rfl, rfl, rfl⟩
      · obtain ⟨claim, hclaim, hrest⟩ := hkept provider code limit hheld
        exact ⟨claim, List.mem_append_left _ hclaim, hrest⟩

theorem codesHeld_effect {outcome : Outcome} (h : CodesHeld db.codeClaims log)
    (heffect : Effect host db request outcome) :
    CodesHeld outcome.db.codeClaims (outcome.entries ++ log) := by
  have hsingle : ∀ {entry : Entry}, entry.isClaim = false →
      ∀ other ∈ [entry], other.isClaim = false := by
    intro entry hentry other hother
    obtain rfl := List.mem_singleton.mp hother
    exact hentry
  cases heffect with
  | idle next => exact h
  | consumed clock input next hcall =>
      obtain ⟨_, hafter, _⟩ := Database.consumeHumanLoginTransaction_ok.mp hcall
      dsimp only
      rw [hafter]
      refine h.frame fun entry hentry => ?_
      obtain ⟨row, _, rfl⟩ := List.mem_map.mp hentry
      rfl
  | claimed clock providerId codeSha256 expiresAt next =>
      exact h.claimed clock providerId codeSha256 expiresAt
  | opened next _ _ _ _ hinsert =>
      obtain ⟨_, _, _, rfl⟩ := Database.insertSession_ok.mp hinsert
      exact h.frame (hsingle rfl)
  | authenticated token next => exact h.frame (hsingle rfl)
  | rotated input next _ _ _ hinsert hupdate =>
      obtain ⟨_, _, _, rfl⟩ := Database.insertSession_ok.mp hinsert
      obtain ⟨_, rfl⟩ := Database.updateSessions_ok.mp hupdate
      exact h.frame (hsingle rfl)
  | revoked clock token revokedAt next _ _ _ hupdate hentries =>
      obtain ⟨_, rfl⟩ := Database.updateSessions_ok.mp hupdate
      refine h.frame fun entry hentry => ?_
      dsimp only at hentry
      rcases hentries with rfl | rfl
      · exact hsingle rfl entry hentry
      · rcases List.mem_cons.mp hentry with rfl | hrest
        · rfl
        · exact hsingle rfl entry hrest

theorem codesHeld_step (h : CodesHeld system.db.codeClaims system.log) (event : Event) :
    CodesHeld (system.step config host event).db.codeClaims
      (system.step config host event).log := by
  cases event with
  | login clock id input =>
      rw [System.step]
      split
      · next after created hcall =>
          obtain ⟨_, _, _, _, _, _, _, hafter⟩ := Database.createHumanLoginTransaction_ok hcall
          dsimp only at hafter ⊢
          rw [hafter]
          exact ⟨h.once, h.stored⟩
      · exact h
  | callback | renew | logout => exact h
  | advance index environment =>
      rw [System.step]
      split
      · exact codesHeld_effect h (act_effect config host environment _ _)
      · exact h

end HumanSession
