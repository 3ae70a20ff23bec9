import MuniRag.Cases.Mutation
import MuniRag.Lib.Locks

/-!
# What the locks of the mutations guarantee

Every lock has one holder at a time.  A transaction that holds the lock of an
idempotency row holds the committed version of its own key, and one that has
inserted a row has deleted the committed version first, so no two transactions
have written the row of one key.
-/

namespace Cases

open Locks

variable {ι : Type} [DecidableEq ι] [Fintype ι] {service : Service} {mutations : ι → Mutation}
variable {world : World ι} {i : ι}

/-- What a transaction holds of the locks and of the row of its key. -/
structure Holding where
  advisory : Option Int
  rowLock : Option Nat
  removed : Bool
  inserted : Bool
  caseLock : Option CaseKey

def Session.holding (session : Session) : Holding where
  advisory := session.advisory
  rowLock := session.rowLock
  removed := session.removed
  inserted := session.inserted.isSome
  caseLock := session.caseLock

/-- The ways in which one move changes what a transaction holds. -/
inductive Taken (service : Service) (mutations : ι → Mutation) (world : World ι) (i : ι) :
    Holding → Prop
  | keeps : Taken service mutations world i (world.sessions i).holding
  | ends : Taken service mutations world i Session.opening.holding
  | advisory (hfree : ∀ j, j ≠ i →
        (world.sessions j).advisory ≠ some ((mutations i).lockKey service)) :
      Taken service mutations world i { (world.sessions i).holding with
        advisory := some ((mutations i).lockKey service) }
  | rowLock (version : KeyVersion) (removed : Bool)
      (hkey : world.keys ((mutations i).keyName service) = some version)
      (hfree : ¬ world.isLocked i version.tid)
      (hremoved : (world.sessions i).removed = true → removed = true) :
      Taken service mutations world i { (world.sessions i).holding with
        rowLock := some version.tid, removed }
  | inserted (hfree : ¬ world.awaitsInsert service mutations i)
      (hrival : world.rival ((mutations i).keyName service) (world.sessions i) = none) :
      Taken service mutations world i { (world.sessions i).holding with inserted := true }
  | caseLock (key : CaseKey) (hfree : ∀ j, j ≠ i → (world.sessions j).caseLock ≠ some key) :
      Taken service mutations world i { (world.sessions i).holding with caseLock := some key }

omit [DecidableEq ι] [Fintype ι] in
theorem move_taken {session : Session}
    (hmove : Session.Move service mutations world i session) :
    Taken service mutations world i session.holding := by
  cases hmove with
  | lock hstage hfree => exact .advisory hfree
  | aggregate hstage =>
      rcases readAggregate_cases (world.sessions i) (world.tables.acknowledged?
          (mutations i).principal.tenantId (mutations i).principal.principalId
          ((mutations i).requestSha256 service)) with hread | ⟨_, _, _, _, _, _, hread⟩ <;>
        rw [hread] <;> exact .keeps
  | read version hstage hkey hfree =>
      rcases readKey_cases service (world.sessions i) (mutations i) version with
          ⟨_, _, _, hread⟩ | ⟨_, _, _, _, hread⟩ | ⟨_, hread⟩ <;> rw [hread]
      · exact .ends
      · exact .rowLock version _ hkey hfree id
      · exact .rowLock version _ hkey hfree id
  | remove version hstage hkey hfree => exact .rowLock version true hkey hfree fun _ => rfl
  | insert hstage hfree hrival => exact .inserted hfree hrival
  | lockCase key record hstage hkind hfree => exact .caseLock key hfree
  | complete body row hstage hrow hmine =>
      have hsame : (world.sessions i).holding.inserted = true := by
        simp [Session.holding, hrow]
      have hkeeps : Taken service mutations world i { (world.sessions i).holding with
          inserted := true } := by
        rw [← hsame]
        exact .keeps
      exact hkeeps
  | release failure hstage =>
      rw [Session.release]
      split <;> exact .ends
  | collide | forget => exact .ends
  | _ => exact .keeps

omit [DecidableEq ι] [Fintype ι] in
theorem fault_taken (message : String) :
    Taken service mutations world i ((world.sessions i).fault message).holding := by
  rw [Session.fault]
  split
  case h_6 => split <;> exact .ends
  case h_11 => exact .ends
  all_goals exact .keeps

/-- The key whose row a transaction has inserted. -/
def World.insertedKey (service : Service) (mutations : ι → Mutation) (world : World ι) (i : ι) :
    Option KeyName :=
  if (world.sessions i).inserted.isSome = true then some ((mutations i).keyName service) else none

/-- **Invariant of the locks.** -/
structure World.Exclusive (service : Service) (mutations : ι → Mutation) (world : World ι) :
    Prop where
  advisory : Sole fun i => (world.sessions i).advisory
  rowLock : Sole fun i => (world.sessions i).rowLock
  caseLock : Sole fun i => (world.sessions i).caseLock
  inserted : Sole (world.insertedKey service mutations)
  current : ∀ i tid, (world.sessions i).rowLock = some tid →
    ∃ version ∈ world.keys ((mutations i).keyName service), version.tid = tid
  removes : ∀ i, (world.sessions i).removed = true → (world.sessions i).rowLock ≠ none
  replaces : ∀ i, (world.sessions i).inserted.isSome = true →
    ∀ version ∈ world.keys ((mutations i).keyName service),
      (world.sessions i).hasRemoved version = true

omit [Fintype ι] in
theorem put_field {α : Type} (f : ι → Session → α) (world : World ι) (i : ι)
    (session : Session) :
    (fun j => f j ((world.put i session).sessions j)) =
      Function.update (fun j => f j (world.sessions j)) i (f i session) := by
  funext j
  exact Function.apply_update f world.sessions i session j

omit [DecidableEq ι] [Fintype ι] in
theorem exclusive_opening (catalog : Catalog) (tables : Tables)
    (keys : KeyName → Option KeyVersion) (nextTid : Nat) :
    (World.opening ι catalog tables keys nextTid).Exclusive service mutations where
  advisory := sole_of_none fun _ => rfl
  rowLock := sole_of_none fun _ => rfl
  caseLock := sole_of_none fun _ => rfl
  inserted := sole_of_none fun _ => rfl
  current _ _ h := nomatch h
  removes _ h := nomatch h
  replaces _ h := nomatch h

section Taken

variable {hold : Holding}

omit [DecidableEq ι] [Fintype ι]

theorem taken_advisory (htaken : Taken service mutations world i hold)
    (h : world.Exclusive service mutations) :
    ∀ lock ∈ hold.advisory, ∀ j, j ≠ i → (world.sessions j).advisory ≠ some lock := by
  intro lock hlock
  cases htaken with
  | ends => simp [Session.holding, Session.opening] at hlock
  | advisory hfree =>
      obtain rfl : (mutations i).lockKey service = lock := by simpa using hlock
      exact hfree
  | _ => exact h.advisory.free hlock

theorem taken_caseLock (htaken : Taken service mutations world i hold)
    (h : world.Exclusive service mutations) :
    ∀ lock ∈ hold.caseLock, ∀ j, j ≠ i → (world.sessions j).caseLock ≠ some lock := by
  intro lock hlock
  cases htaken with
  | ends => simp [Session.holding, Session.opening] at hlock
  | caseLock key hfree =>
      obtain rfl : key = lock := by simpa using hlock
      exact hfree
  | _ => exact h.caseLock.free hlock

theorem taken_rowLock (htaken : Taken service mutations world i hold)
    (h : world.Exclusive service mutations) :
    ∀ tid ∈ hold.rowLock, (∀ j, j ≠ i → (world.sessions j).rowLock ≠ some tid) ∧
      ∃ version ∈ world.keys ((mutations i).keyName service), version.tid = tid := by
  intro tid hlock
  cases htaken with
  | ends => simp [Session.holding, Session.opening] at hlock
  | rowLock version removed hkey hfree hremoved =>
      obtain rfl : version.tid = tid := by simpa using hlock
      exact ⟨fun j hj hheld => hfree ⟨j, hj, hheld⟩, version, hkey, rfl⟩
  | _ => exact ⟨h.rowLock.free hlock, h.current i tid hlock⟩

theorem taken_removes (htaken : Taken service mutations world i hold)
    (h : world.Exclusive service mutations) (hremoved : hold.removed = true) :
    hold.rowLock ≠ none := by
  cases htaken with
  | ends => simp [Session.holding, Session.opening] at hremoved
  | rowLock version removed hkey hfree => simp
  | _ => exact h.removes i hremoved

theorem taken_replaces (htaken : Taken service mutations world i hold)
    (h : world.Exclusive service mutations) (hinserted : hold.inserted = true) :
    ∀ version ∈ world.keys ((mutations i).keyName service),
      hold.removed = true ∧ hold.rowLock = some version.tid := by
  intro version hversion
  have hold : ∀ session : Session, session.hasRemoved version = true →
      session.removed = true ∧ session.rowLock = some version.tid := by
    intro session hremoved
    simpa [Session.hasRemoved] using hremoved
  cases htaken with
  | ends => simp [Session.holding, Session.opening] at hinserted
  | rowLock other removed hkey hfree hremoved =>
      obtain rfl : other = version := by simpa [hkey] using hversion
      exact ⟨hremoved (hold _ (h.replaces i hinserted other hversion)).1, rfl⟩
  | inserted hfree hrival =>
      have hgone : (world.sessions i).hasRemoved version = true := by
        simpa using Option.filter_eq_none_iff.mp hrival version hversion
      exact hold _ hgone
  | _ => exact hold _ (h.replaces i hinserted version hversion)

theorem taken_inserted (htaken : Taken service mutations world i hold)
    (h : world.Exclusive service mutations) (hinserted : hold.inserted = true) :
    ∀ j, j ≠ i → world.insertedKey service mutations j ≠ some ((mutations i).keyName service) := by
  intro j hj hother
  have hothers : (world.sessions j).inserted.isSome = true ∧
      (mutations j).keyName service = (mutations i).keyName service := by
    simpa [World.insertedKey] using hother
  have hsole : (world.sessions i).inserted.isSome = true → False := by
    intro hmine
    exact hj (h.inserted j i _ hother (by simp [World.insertedKey, hmine]))
  cases htaken with
  | ends => simp [Session.holding, Session.opening] at hinserted
  | inserted hfree hrival =>
      have hsome : (world.sessions j).inserted ≠ none := by
        intro hnone
        simp [hnone] at hothers
      exact hfree ⟨j, hj, hothers.2, .inl hsome⟩
  | _ => exact hsole hinserted

end Taken

omit [Fintype ι] in
/-- **Move lemma.** -/
theorem exclusive_put {session : Session} (h : world.Exclusive service mutations)
    (htaken : Taken service mutations world i session.holding) :
    (world.put i session).Exclusive service mutations where
  advisory := by
    rw [put_field (fun _ session => session.advisory)]
    exact h.advisory.update (taken_advisory htaken h)
  caseLock := by
    rw [put_field (fun _ session => session.caseLock)]
    exact h.caseLock.update (taken_caseLock htaken h)
  rowLock := by
    rw [put_field (fun _ session => session.rowLock)]
    exact h.rowLock.update fun tid htid => (taken_rowLock htaken h tid htid).1
  inserted := by
    have hput := put_field (fun j session =>
      if session.inserted.isSome = true then some ((mutations j).keyName service) else none)
      world i session
    have hsole : Sole (world.insertedKey service mutations) := h.inserted
    unfold World.insertedKey
    rw [hput]
    refine hsole.update fun name hname => ?_
    by_cases hinserted : session.inserted.isSome = true
    · obtain rfl : (mutations i).keyName service = name := by simpa [hinserted] using hname
      exact taken_inserted htaken h hinserted
    · simp [hinserted] at hname
  current := by
    intro j tid hlock
    by_cases hj : j = i
    · subst hj
      rw [put_self] at hlock
      exact (taken_rowLock htaken h tid hlock).2
    · rw [put_other _ _ hj] at hlock
      exact h.current j tid hlock
  removes := by
    intro j hremoved
    by_cases hj : j = i
    · subst hj
      rw [put_self] at hremoved ⊢
      exact taken_removes htaken h hremoved
    · rw [put_other _ _ hj] at hremoved ⊢
      exact h.removes j hremoved
  replaces := by
    intro j hinserted version hversion
    by_cases hj : j = i
    · subst hj
      rw [put_self] at hinserted ⊢
      have hgone : session.removed = true ∧ session.rowLock = some version.tid :=
        taken_replaces htaken h hinserted version hversion
      simpa [Session.hasRemoved] using hgone
    · rw [put_other _ _ hj] at hinserted ⊢
      exact h.replaces j hinserted version hversion

omit [DecidableEq ι] [Fintype ι] in
/-- Whoever has locked or inserted the row of a key is alone with the key when
another has deleted or inserted its row. -/
theorem not_current_of_inserted (h : world.Exclusive service mutations) {j : ι} {tid : Nat}
    (hname : (mutations j).keyName service = (mutations i).keyName service)
    (hinserted : (world.sessions i).inserted.isSome = true)
    (hlock : (world.sessions j).rowLock = some tid) : j = i := by
  obtain ⟨version, hversion, rfl⟩ := h.current j tid hlock
  rw [hname] at hversion
  have hmine : (world.sessions i).removed = true ∧
      (world.sessions i).rowLock = some version.tid := by
    simpa [Session.hasRemoved] using h.replaces i hinserted version hversion
  exact h.rowLock j i version.tid hlock hmine.2

omit [DecidableEq ι] [Fintype ι] in
theorem not_current_of_removed (h : world.Exclusive service mutations) {j : ι} {tid : Nat}
    (hname : (mutations j).keyName service = (mutations i).keyName service)
    (hremoved : (world.sessions i).removed = true)
    (hlock : (world.sessions j).rowLock = some tid) : j = i := by
  obtain ⟨version, hversion, rfl⟩ := h.current j tid hlock
  obtain ⟨mine, hmine⟩ := Option.ne_none_iff_exists'.mp (h.removes i hremoved)
  obtain ⟨other, hother, rfl⟩ := h.current i mine hmine
  rw [hname] at hversion
  have hsame : version = other := Option.mem_unique hversion hother
  rw [hsame] at hlock
  exact h.rowLock j i other.tid hlock hmine

omit [Fintype ι] in
/-- The row of a key after the commit of a transaction. -/
theorem commit_keys (world : World ι) (mutation : Mutation) (i : ι) (session : Session)
    (status : Nat) (body : JsString) (name : KeyName) :
    (world.commit service mutation i session status body).keys name =
      if name = mutation.keyName service then
        match session.inserted with
        | some row => some { tid := world.nextTid, row }
        | none => if session.removed = true then none else world.keys name
      else world.keys name := by
  by_cases hname : name = mutation.keyName service
  · subst hname
    cases hinserted : session.inserted with
    | some row => simp [World.commit, World.put, hinserted]
    | none =>
        by_cases hremoved : session.removed = true <;>
          simp [World.commit, World.put, hinserted, hremoved]
  · cases hinserted : session.inserted with
    | some row => simp [World.commit, World.put, hinserted, hname]
    | none =>
        by_cases hremoved : session.removed = true <;>
          simp [World.commit, World.put, hinserted, hremoved, hname]

omit [Fintype ι] in
/-- The keys change, and no other transaction that is interested in the row of
its key notices. -/
theorem exclusive_rekey {session : Session} {next : World ι}
    (h : world.Exclusive service mutations)
    (hsessions : next.sessions = Function.update world.sessions i session)
    (hends : session.holding = Session.opening.holding)
    (hlock : ∀ j, j ≠ i → ∀ tid, (world.sessions j).rowLock = some tid →
      next.keys ((mutations j).keyName service) = world.keys ((mutations j).keyName service))
    (hinserted : ∀ j, j ≠ i → (world.sessions j).inserted.isSome = true →
      next.keys ((mutations j).keyName service) = none ∨
        next.keys ((mutations j).keyName service) = world.keys ((mutations j).keyName service)) :
    next.Exclusive service mutations := by
  have htaken : Taken service mutations world i session.holding := by
    rw [hends]
    exact .ends
  have hput := exclusive_put h htaken
  have hfields : next.sessions = (world.put i session).sessions := hsessions
  have hother : ∀ j, j ≠ i → next.sessions j = world.sessions j := fun j hj => by
    rw [hfields, put_other _ _ hj]
  have hself : next.sessions i = session := by rw [hfields, put_self]
  refine ⟨?_, ?_, ?_, ?_, ?_, ?_, ?_⟩
  · rw [hfields]
    exact hput.advisory
  · rw [hfields]
    exact hput.rowLock
  · rw [hfields]
    exact hput.caseLock
  · unfold World.insertedKey
    rw [hfields]
    exact hput.inserted
  · intro j tid hheld
    by_cases hj : j = i
    · subst hj
      have hnone : session.rowLock = none := congrArg Holding.rowLock hends
      rw [hself, hnone] at hheld
      cases hheld
    · rw [hother j hj] at hheld
      rw [hlock j hj tid hheld]
      exact h.current j tid hheld
  · rw [hfields]
    exact hput.removes
  · intro j hheld version hversion
    by_cases hj : j = i
    · subst hj
      have hnone : session.inserted.isSome = false := congrArg Holding.inserted hends
      rw [hself, hnone] at hheld
      cases hheld
    · rw [hother j hj] at hheld ⊢
      rcases hinserted j hj hheld with hgone | hsame
      · rw [hgone] at hversion
        cases hversion
      · rw [hsame] at hversion
        exact h.replaces j hheld version hversion

omit [DecidableEq ι] [Fintype ι] in
/-- A row that nobody has locked is not the row of a key that somebody has. -/
theorem unlocked_key_ne (h : world.Exclusive service mutations) {j : ι} {tid : Nat}
    {version : KeyVersion} (hkey : world.keys ((mutations i).keyName service) = some version)
    (hfree : ∀ j, (world.sessions j).rowLock ≠ some version.tid)
    (hlock : (world.sessions j).rowLock = some tid) :
    (mutations j).keyName service ≠ (mutations i).keyName service := by
  intro hsame
  obtain ⟨other, hother, rfl⟩ := h.current j tid hlock
  rw [hsame, hkey] at hother
  obtain rfl : version = other := by simpa using hother
  exact hfree j hlock

omit [Fintype ι] in
/-- No commit of another transaction changes a row that is locked. -/
theorem commit_locked (h : world.Exclusive service mutations) {j : ι} {tid : Nat} (hj : j ≠ i)
    (hlock : (world.sessions j).rowLock = some tid) (status : Nat) (body : JsString) :
    (world.commit service (mutations i) i (world.sessions i) status body).keys
        ((mutations j).keyName service) = world.keys ((mutations j).keyName service) := by
  rw [commit_keys]
  by_cases hname : (mutations j).keyName service = (mutations i).keyName service
  · rw [if_pos hname]
    cases hmine : (world.sessions i).inserted with
    | some row => exact absurd (not_current_of_inserted h hname (by rw [hmine]; rfl) hlock) hj
    | none =>
        by_cases hremoved : (world.sessions i).removed = true
        · exact absurd (not_current_of_removed h hname hremoved hlock) hj
        · simp only [hremoved]
          rfl
  · rw [if_neg hname]

/-- **Step lemma.** -/
theorem exclusive_step (h : world.Exclusive service mutations) (event : Event ι) :
    (world.step service mutations event).Exclusive service mutations := by
  obtain ⟨next, hnext, hchange⟩ := step_cases service mutations world event
  rw [hnext]
  cases hchange with
  | wait j => exact h
  | catalog catalog => exact ⟨h.1, h.2, h.3, h.4, h.5, h.6, h.7⟩
  | move j session hmove => exact exclusive_put h (move_taken hmove)
  | fault j message => exact exclusive_put h (fault_taken message)
  | invalidate j version hstage hkey hfree =>
      refine exclusive_rekey h rfl rfl ?_ ?_
      · intro k hk tid hlock
        have hname := unlocked_key_ne h hkey hfree hlock
        exact Function.update_of_ne hname ..
      · intro k hk hinserted
        by_cases hname : (mutations k).keyName service = (mutations j).keyName service
        · left
          rw [hname]
          exact Function.update_self ..
        · right
          exact Function.update_of_ne hname ..
  | commit j status body hstage =>
      refine exclusive_rekey h rfl rfl ?_ ?_
      · intro k hk tid hlock
        exact commit_locked h hk hlock status body
      · intro k hk hinserted
        rw [commit_keys]
        by_cases hname : (mutations k).keyName service = (mutations j).keyName service
        · rw [if_pos hname]
          cases hmine : (world.sessions j).inserted with
          | some row =>
              have hsame : k = j := h.inserted k j ((mutations j).keyName service)
                (by simp [World.insertedKey, hinserted, hname])
                (by simp [World.insertedKey, hmine])
              exact absurd hsame hk
          | none =>
              by_cases hremoved : (world.sessions j).removed = true
              · exact .inl (by simp [hremoved])
              · exact .inr (by simp [hremoved])
        · rw [if_neg hname]
          exact .inr rfl

end Cases
