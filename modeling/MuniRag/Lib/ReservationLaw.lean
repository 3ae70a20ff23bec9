import MuniRag.Lib.Reservations

/-!
# The law of reserved keys

Every run of the protocol is lawful (`lawful_run`): the rows of the table are those of committed
executions, and a request works on a key only while it holds the lock and everything that was
executed under the key before has run out or was deleted.  What the work of the requests does to
the rest of the database is left to the handler; `data_invariant` is the rule for it.
-/

namespace Reservations

open Runs

section Invariant

variable {ι κ δ ρ ε ω μ α : Type} (h : Handler ι κ δ ρ ε ω μ α)

/-! ## The invariant -/

/-- What the history allows a request to be told. -/
structure Fits (log : List (Entry ι κ ρ)) (now : Int) (i : ι) (phase : Phase δ ρ ε ω) :
    Prop where
  ends : ∀ commit, .committed commit ∈ log → commit.owner = i → phase = .failing ∨
    phase = .answered .failed ∨ phase = .answered (.success commit.response)
  answers : ∀ response, phase = .answered (.success response) →
    ∃ commit, .committed commit ∈ log ∧ h.key commit.owner = h.key i ∧
      h.digest commit.owner = h.digest i ∧ commit.response = response ∧
      (commit.owner = i ∨ ∃ move, h.reject i move response = none)
  never : phase ≠ .answered .inProgress
  swept : ∀ sweptAt askedAt, phase = .swept sweptAt ∨ phase = .inserting sweptAt askedAt →
    sweptAt ≤ now

/-- The executions of a key that were not deleted have run out at an instant. -/
def RunOut (log : List (Entry ι κ ρ)) (key : κ) (instant : Int) : Prop :=
  ∀ before commit after, log = before ++ .committed commit :: after →
    h.key commit.owner = key → .invalidated key ∉ after → commit.askedAt + h.lifetime ≤ instant

/-- When what is stored under a key has run out. -/
def World.freeAt (world : World ι κ δ ρ ε ω α) (key : κ) : Int :=
  match world.rows key with
  | none => world.now
  | some row => max world.now row.expiresAt

structure Inv (log : List (Entry ι κ ρ)) (world : World ι κ δ ρ ε ω α) : Prop where
  apart : ∀ before first between second after,
    log = before ++ .committed first :: between ++ .committed second :: after →
    h.key first.owner = h.key second.owner → .invalidated (h.key first.owner) ∉ between →
    first.askedAt + h.lifetime ≤ second.reservedAt
  once : ∀ before first between second after,
    log = before ++ .committed first :: between ++ .committed second :: after →
    first.owner ≠ second.owner
  fits : ∀ i, Fits h log world.now i (world.phases i)
  rows : ∀ key row, world.rows key = some row → ∃ commit, .committed commit ∈ log ∧
    h.key commit.owner = key ∧
    row = ⟨h.digest commit.owner, some commit.response, commit.askedAt + h.lifetime⟩
  latest : ∀ key, RunOut h log key (world.freeAt key)
  working : ∀ i row reservedAt work, world.phases i = .working row reservedAt work →
    world.locks (h.key i) = some i ∧ row.digest = h.digest i ∧ row.response = none ∧
      reservedAt ≤ world.now ∧ RunOut h log (h.key i) reservedAt
  locked : ∀ key i, world.locks key = some i → h.key i = key ∧
    ∃ row reservedAt work, world.phases i = .working row reservedAt work

end Invariant

section Keep

variable {ι κ δ ρ ε ω μ α : Type} {h : Handler ι κ δ ρ ε ω μ α} {log : List (Entry ι κ ρ)}
  {world : World ι κ δ ρ ε ω α} {i : ι}

/-- What an appended list ends with. -/
theorem append_singleton_cases {β : Type} {xs before after : List β} {last x : β}
    (hsplit : xs ++ [last] = before ++ x :: after) :
    after = [] ∧ xs = before ∧ last = x ∨
      ∃ after', after = after' ++ [last] ∧ xs = before ++ x :: after' := by
  rcases List.eq_nil_or_concat after with rfl | ⟨after', last', rfl⟩
  · obtain ⟨hxs, hlast⟩ := List.append_inj' hsplit rfl
    exact .inl ⟨rfl, hxs, by simpa using hlast⟩
  · have hsplit' : xs ++ [last] = (before ++ x :: after') ++ [last'] := by simpa using hsplit
    obtain ⟨hxs, hlast⟩ := List.append_inj' hsplit' rfl
    obtain rfl : last = last' := by simpa using hlast
    exact .inr ⟨after', by simp, hxs⟩

theorem RunOut.later {key : κ} {instant instant' : Int} (hout : RunOut h log key instant)
    (hle : instant ≤ instant') : RunOut h log key instant' :=
  fun before commit after hlog hkey hafter =>
    Int.le_trans (hout before commit after hlog hkey hafter) hle

theorem RunOut.append {key : κ} {instant : Int} (hout : RunOut h log key instant)
    {entry : Entry ι κ ρ} (hentry : ∀ commit, entry = .committed commit →
      h.key commit.owner = key → commit.askedAt + h.lifetime ≤ instant) :
    RunOut h (log ++ [entry]) key instant := by
  intro before commit after hlog hkey hafter
  rcases append_singleton_cases hlog with ⟨-, -, hlast⟩ | ⟨after', rfl, hlog'⟩
  · exact hentry commit hlast hkey
  · exact hout before commit after' hlog' hkey fun hmem => hafter (List.mem_append_left _ hmem)

theorem runOut_invalidated (log : List (Entry ι κ ρ)) (key : κ) (instant : Int) :
    RunOut h (log ++ [.invalidated key]) key instant := by
  intro before commit after hlog _ hafter
  rcases append_singleton_cases hlog with ⟨-, -, hlast⟩ | ⟨after', rfl, -⟩
  · cases hlast
  · simp at hafter

theorem Fits.append {now : Int} {phase : Phase δ ρ ε ω} (hfits : Fits h log now i phase)
    {entry : Entry ι κ ρ} (hentry : ∀ commit, entry = .committed commit → commit.owner ≠ i) :
    Fits h (log ++ [entry]) now i phase where
  ends commit hcommit howner := by
    rcases List.mem_append.mp hcommit with hmem | hmem
    · exact hfits.ends commit hmem howner
    · exact absurd howner (hentry commit (List.mem_singleton.mp hmem).symm)
  answers response hphase := by
    obtain ⟨commit, hcommit, hrest⟩ := hfits.answers response hphase
    exact ⟨commit, List.mem_append_left _ hcommit, hrest⟩
  never := hfits.never
  swept := hfits.swept

/-- A request that does not know of a commit has none. -/
theorem Fits.unowned {now : Int} {phase : Phase δ ρ ε ω} (hfits : Fits h log now i phase)
    (hphase : ∀ answer, phase ≠ .failing ∧ phase ≠ .answered answer) (commit : Commit ι ρ)
    (hcommit : .committed commit ∈ log) : commit.owner ≠ i := by
  intro howner
  rcases hfits.ends commit hcommit howner with hfailing | hfailed | hsuccess
  · exact (hphase .failed).1 hfailing
  · exact (hphase .failed).2 hfailed
  · exact (hphase _).2 hsuccess

/-- A phase that tells a request nothing. -/
theorem fits_of_unowned {now : Int} {phase : Phase δ ρ ε ω}
    (hunowned : ∀ commit, .committed commit ∈ log → commit.owner ≠ i)
    (hanswer : ∀ response, phase ≠ .answered (.success response))
    (hnever : phase ≠ .answered .inProgress)
    (hswept : ∀ sweptAt askedAt, phase = .swept sweptAt ∨ phase = .inserting sweptAt askedAt →
      sweptAt ≤ now) : Fits h log now i phase where
  ends commit hcommit howner := absurd howner (hunowned commit hcommit)
  answers response hphase := absurd hphase (hanswer response)
  never := hnever
  swept := hswept

theorem fits_failing (now : Int) : Fits h log now i .failing where
  ends _ _ _ := .inl rfl
  answers _ hphase := by cases hphase
  never hphase := by cases hphase
  swept _ _ hphase := by rcases hphase with hphase | hphase <;> cases hphase

theorem Inv.lawful (hinv : Inv h log world) : Lawful h log world where
  apart := hinv.apart
  once := hinv.once
  ends commit hcommit := (hinv.fits commit.owner).ends commit hcommit rfl
  answers i := (hinv.fits i).answers
  rows := hinv.rows
  never i := (hinv.fits i).never

variable [DecidableEq ι] [DecidableEq κ]

omit [DecidableEq κ] in
/-- A request whose transaction is not open goes on, or ends. -/
theorem Inv.enter (hinv : Inv h log world) {phase : Phase δ ρ ε ω}
    (hbefore : ∀ row reservedAt work, world.phases i ≠ .working row reservedAt work)
    (hafter : ∀ row reservedAt work, phase ≠ .working row reservedAt work)
    (hfits : Fits h log world.now i phase) : Inv h log (world.enter i phase) where
  apart := hinv.apart
  once := hinv.once
  fits j := by
    rw [enter_phases]
    split_ifs with hsame
    · rw [hsame]
      exact hfits
    · exact hinv.fits j
  rows := hinv.rows
  latest := hinv.latest
  working j row reservedAt work hj := by
    rw [enter_phases] at hj
    split_ifs at hj
    · exact absurd hj (hafter row reservedAt work)
    · exact hinv.working j row reservedAt work hj
  locked key j hj := by
    obtain ⟨hkey, row, reservedAt, work, hworking⟩ := hinv.locked key j hj
    refine ⟨hkey, row, reservedAt, work, ?_⟩
    rw [enter_phases, if_neg]
    · exact hworking
    · rintro rfl
      exact hbefore row reservedAt work hworking

omit [DecidableEq κ] in
/-- A transaction is committed that leaves the table as it is. -/
theorem Inv.concludes (hinv : Inv h log world) {answer : Answer ρ ε}
    (hbefore : ∀ row reservedAt work, world.phases i ≠ .working row reservedAt work)
    (hfits : Fits h log world.now i (.answered answer)) (heard : Bool) :
    Inv h log (world.conclude i answer heard) := by
  unfold World.conclude
  cases heard with
  | false => exact hinv.enter hbefore (by simp) (fits_failing _)
  | true => exact hinv.enter hbefore (by simp) hfits

omit [DecidableEq κ] in
/-- A working request stands at a row of its own, whatever its work has come to. -/
theorem Inv.works (hinv : Inv h log world) {row : Row δ ρ} {reservedAt : Int} {work work' : ω}
    (hworking : world.phases i = .working row reservedAt work) :
    Inv h log (world.enter i (.working row reservedAt work')) where
  apart := hinv.apart
  once := hinv.once
  fits j := by
    rw [enter_phases]
    split_ifs with hsame
    · rw [hsame]
      have hunowned := (hinv.fits i).unowned (by simp [hworking])
      exact fits_of_unowned hunowned (by simp) (by simp) (by simp)
    · exact hinv.fits j
  rows := hinv.rows
  latest := hinv.latest
  working j row' reservedAt' work'' hj := by
    rw [enter_phases] at hj
    split_ifs at hj with hsame
    · cases hj
      rw [hsame]
      exact hinv.working i row reservedAt work hworking
    · exact hinv.working j row' reservedAt' work'' hj
  locked key j hj := by
    obtain ⟨hkey, row', reservedAt', work'', hworking'⟩ := hinv.locked key j hj
    refine ⟨hkey, ?_⟩
    rw [enter_phases]
    split_ifs
    · exact ⟨row, reservedAt, work', rfl⟩
    · exact ⟨row', reservedAt', work'', hworking'⟩

omit [DecidableEq ι] [DecidableEq κ] in
theorem Inv.putData (hinv : Inv h log world) (data : α) : Inv h log (world.putData data) :=
  ⟨hinv.apart, hinv.once, hinv.fits, hinv.rows, hinv.latest, hinv.working, hinv.locked⟩

omit [DecidableEq ι] in
/-- The row of a key that has run out is deleted. -/
theorem Inv.sweeps (hinv : Inv h log world) {key : κ} (hout : RunOut h log key world.now) :
    Inv h log (world.putRow key none) where
  apart := hinv.apart
  once := hinv.once
  fits := hinv.fits
  rows other row hother := by
    rw [putRow_rows] at hother
    split_ifs at hother
    exact hinv.rows other row hother
  latest other := by
    unfold World.freeAt
    rw [putRow_rows]
    split_ifs with hsame
    · rw [hsame]
      exact hout
    · exact hinv.latest other
  working := hinv.working
  locked := hinv.locked

omit [DecidableEq ι] [DecidableEq κ] in
theorem Inv.runOut (hinv : Inv h log world) {key : κ}
    (hexpired : ∀ row, world.rows key = some row → row.expiresAt ≤ world.now) :
    RunOut h log key world.now := by
  refine (hinv.latest key).later ?_
  unfold World.freeAt
  split
  · exact Int.le_refl _
  · rename_i row hrow
    exact Int.max_le.mpr ⟨Int.le_refl _, hexpired row hrow⟩

omit [DecidableEq ι] in
/-- A stored response is deleted. -/
theorem Inv.invalidates (hinv : Inv h log world) (key : κ) :
    Inv h (log ++ [.invalidated key]) (world.putRow key none) where
  apart before first between second after hlog := by
    rcases append_singleton_cases hlog with ⟨-, -, hlast⟩ | ⟨after', -, hlog'⟩
    · cases hlast
    · exact hinv.apart before first between second after' hlog'
  once before first between second after hlog := by
    rcases append_singleton_cases hlog with ⟨-, -, hlast⟩ | ⟨after', -, hlog'⟩
    · cases hlast
    · exact hinv.once before first between second after' hlog'
  fits i := (hinv.fits i).append (by simp)
  rows other row hother := by
    rw [putRow_rows] at hother
    split_ifs at hother
    obtain ⟨commit, hcommit, hrest⟩ := hinv.rows other row hother
    exact ⟨commit, List.mem_append_left _ hcommit, hrest⟩
  latest other := by
    by_cases hsame : other = key
    · rw [hsame]
      exact runOut_invalidated log key _
    · unfold World.freeAt
      rw [putRow_rows, if_neg hsame]
      exact (hinv.latest other).append (by simp)
  working i row reservedAt work hworking := by
    obtain ⟨hlock, hdigest, hresponse, hpast, hout⟩ := hinv.working i row reservedAt work hworking
    exact ⟨hlock, hdigest, hresponse, hpast, hout.append (by simp)⟩
  locked := hinv.locked

omit [DecidableEq ι] [DecidableEq κ] in
/-- No transaction works on a key that is not locked. -/
theorem Inv.unlocked (hinv : Inv h log world) {key : κ} (hlock : world.locks key = none) {j : ι}
    {row : Row δ ρ} {reservedAt : Int} {work : ω}
    (hj : world.phases j = .working row reservedAt work) : h.key j ≠ key := by
  rintro rfl
  rw [(hinv.working j row reservedAt work hj).1] at hlock
  cases hlock

omit [DecidableEq ι] [DecidableEq κ] in
/-- The work of one request only is under way on a key. -/
theorem Inv.alone (hinv : Inv h log world) {j : ι} {row row' : Row δ ρ}
    {reservedAt reservedAt' : Int} {work work' : ω}
    (hi : world.phases i = .working row reservedAt work)
    (hj : world.phases j = .working row' reservedAt' work') (hkey : h.key j = h.key i) :
    j = i := by
  have hheld := (hinv.working j row' reservedAt' work' hj).1
  rw [hkey, (hinv.working i row reservedAt work hi).1] at hheld
  exact (Option.some.inj hheld).symm

/-- A request reserves a key under which nothing is stored but what has run out. -/
theorem Inv.reserves (hinv : Inv h log world) {expiresAt : Int} {work : ω}
    (hbefore : ∀ answer, world.phases i ≠ .failing ∧ world.phases i ≠ .answered answer)
    (hidle : ∀ row reservedAt work, world.phases i ≠ .working row reservedAt work)
    (hlock : world.locks (h.key i) = none)
    (hdead : ∀ old, world.rows (h.key i) = some old → old.expiresAt ≤ world.now) :
    Inv h log ((world.putLock (h.key i) (some i)).enter i
      (.working ⟨h.digest i, none, expiresAt⟩ world.now work)) where
  apart := hinv.apart
  once := hinv.once
  fits j := by
    rw [enter_phases]
    split_ifs with hsame
    · rw [hsame]
      have hunowned := (hinv.fits i).unowned hbefore
      exact fits_of_unowned hunowned (by simp) (by simp) (by simp)
    · exact hinv.fits j
  rows := hinv.rows
  latest := hinv.latest
  working j row reservedAt work' hj := by
    rw [enter_phases] at hj
    split_ifs at hj with hsame
    · cases hj
      subst hsame
      have hheld : ((world.putLock (h.key j) (some j)).enter j (.working ⟨h.digest j, none,
          expiresAt⟩ world.now work)).locks (h.key j) = some j :=
        (putLock_locks _ _ _ _).trans (if_pos rfl)
      exact ⟨hheld, rfl, rfl, Int.le_refl _, hinv.runOut hdead⟩
    · have hheld : ((world.putLock (h.key i) (some i)).enter i (.working ⟨h.digest i, none,
          expiresAt⟩ world.now work)).locks (h.key j) = world.locks (h.key j) :=
        (putLock_locks _ _ _ _).trans (if_neg (hinv.unlocked hlock hj))
      rw [hheld]
      exact hinv.working j row reservedAt work' hj
  locked key j hj := by
    have hheld : ((world.putLock (h.key i) (some i)).enter i (.working ⟨h.digest i, none,
        expiresAt⟩ world.now work)).locks key = if key = h.key i then some i
        else world.locks key := putLock_locks _ _ _ _
    rw [hheld] at hj
    split_ifs at hj with hkey
    · cases hj
      exact ⟨hkey.symm, ⟨h.digest i, none, expiresAt⟩, world.now, work,
        (enter_phases _ _ _ _).trans (if_pos rfl)⟩
    · obtain ⟨hsame, row, reservedAt, work', hworking⟩ := hinv.locked key j hj
      refine ⟨hsame, row, reservedAt, work', ?_⟩
      rw [enter_phases, if_neg]
      · exact hworking
      · rintro rfl
        exact hidle row reservedAt work' hworking

/-- The transaction of a working request ends. -/
theorem Inv.unlocks (hinv : Inv h log world) {row : Row δ ρ} {reservedAt : Int} {work : ω}
    (hworking : world.phases i = .working row reservedAt work) {phase : Phase δ ρ ε ω}
    (hafter : ∀ row reservedAt work, phase ≠ .working row reservedAt work)
    (hfits : Fits h log world.now i phase) :
    Inv h log ((world.putLock (h.key i) none).enter i phase) where
  apart := hinv.apart
  once := hinv.once
  fits j := by
    rw [enter_phases]
    split_ifs with hsame
    · rw [hsame]
      exact hfits
    · exact hinv.fits j
  rows := hinv.rows
  latest := hinv.latest
  working j row' reservedAt' work' hj := by
    rw [enter_phases] at hj
    split_ifs at hj with hsame
    · exact absurd hj (hafter row' reservedAt' work')
    · have hheld : ((world.putLock (h.key i) none).enter i phase).locks (h.key j) =
          world.locks (h.key j) :=
        (putLock_locks _ _ _ _).trans (if_neg fun hkey => hsame (hinv.alone hworking hj hkey))
      rw [hheld]
      exact hinv.working j row' reservedAt' work' hj
  locked key j hj := by
    have hheld : ((world.putLock (h.key i) none).enter i phase).locks key =
        if key = h.key i then none else world.locks key := putLock_locks _ _ _ _
    rw [hheld] at hj
    split_ifs at hj with hkey
    obtain ⟨hsame, row', reservedAt', work', hworking'⟩ := hinv.locked key j hj
    refine ⟨hsame, row', reservedAt', work', ?_⟩
    rw [enter_phases, if_neg]
    · exact hworking'
    · rintro rfl
      exact hkey hsame.symm

/-- An execution is committed under a key that was free when it was reserved. -/
theorem Inv.stores (hinv : Inv h log world) {commit : Commit ι ρ}
    (hphase : world.phases commit.owner = .failing)
    (hunowned : ∀ other, .committed other ∈ log → other.owner ≠ commit.owner)
    (hpast : commit.reservedAt ≤ world.now)
    (hout : RunOut h log (h.key commit.owner) commit.reservedAt)
    (hfree : ∀ j row reservedAt work, world.phases j = .working row reservedAt work →
      h.key j ≠ h.key commit.owner) :
    Inv h (log ++ [.committed commit]) (world.putRow (h.key commit.owner)
      (some ⟨h.digest commit.owner, some commit.response, commit.askedAt + h.lifetime⟩)) where
  apart before first between second after hlog hkey hbetween := by
    rcases append_singleton_cases hlog with ⟨-, hlog', hlast⟩ | ⟨after', -, hlog'⟩
    · obtain rfl : commit = second := by simpa using hlast
      exact hout before first between hlog' hkey (hkey ▸ hbetween)
    · exact hinv.apart before first between second after' hlog' hkey hbetween
  once before first between second after hlog := by
    rcases append_singleton_cases hlog with ⟨-, hlog', hlast⟩ | ⟨after', -, hlog'⟩
    · obtain rfl : commit = second := by simpa using hlast
      exact hunowned first (by rw [hlog']; simp)
    · exact hinv.once before first between second after' hlog'
  fits j := by
    by_cases hsame : j = commit.owner
    · rw [hsame]
      exact hphase ▸ fits_failing world.now
    · refine (hinv.fits j).append ?_
      rintro other hother rfl
      cases hother
      exact hsame rfl
  rows key row hrow := by
    rw [putRow_rows] at hrow
    split_ifs at hrow with hsame
    · exact ⟨commit, by simp, hsame.symm, (Option.some.inj hrow).symm⟩
    · obtain ⟨other, hother, hrest⟩ := hinv.rows key row hrow
      exact ⟨other, List.mem_append_left _ hother, hrest⟩
  latest key := by
    unfold World.freeAt
    rw [putRow_rows]
    split_ifs with hsame
    · subst hsame
      refine (hout.later ?_).append ?_
      · exact Int.le_trans hpast (Int.le_max_left _ _)
      · rintro other hother -
        cases hother
        exact Int.le_max_right _ _
    · refine (hinv.latest key).append ?_
      rintro other hother hkey
      cases hother
      exact absurd hkey.symm hsame
  working j row reservedAt work hj := by
    obtain ⟨hlock, hdigest, hresponse, hpast', hout'⟩ := hinv.working j row reservedAt work hj
    refine ⟨hlock, hdigest, hresponse, hpast', hout'.append ?_⟩
    rintro other hother hkey
    cases hother
    exact absurd hkey.symm (hfree j row reservedAt work hj)
  locked := hinv.locked

omit [DecidableEq κ] in
theorem enter_enter (world : World ι κ δ ρ ε ω α) (i : ι) (phase phase' : Phase δ ρ ε ω) :
    (world.enter i phase).enter i phase' = world.enter i phase' := by
  unfold World.enter
  rw [Function.update_idem]

/-- The execution of a request is committed under the key that its transaction holds. -/
theorem Inv.commits (hinv : Inv h log world) {row : Row δ ρ} {reservedAt : Int} {work : ω}
    (hworking : world.phases i = .working row reservedAt work) (response : ρ) (heard : Bool) :
    Inv h (log ++ [.committed ⟨i, response, row.expiresAt - h.lifetime, reservedAt⟩])
      (((world.putLock (h.key i) none).putRow (h.key i)
        (some { row with response := some response })).conclude i (.success response) heard) := by
  obtain ⟨-, hdigest, -, hpast, hout⟩ := hinv.working i row reservedAt work hworking
  have hunowned := (hinv.fits i).unowned (by simp [hworking])
  generalize hcommit : (⟨i, response, row.expiresAt - h.lifetime, reservedAt⟩ : Commit ι ρ) = commit
  have hrow : { row with response := some response } =
      (⟨h.digest commit.owner, some commit.response, commit.askedAt + h.lifetime⟩ : Row δ ρ) := by
    rw [← hcommit, Int.sub_add_cancel, ← hdigest]
  obtain rfl : commit.owner = i := by rw [← hcommit]
  obtain rfl : commit.response = response := by rw [← hcommit]
  obtain rfl : commit.reservedAt = reservedAt := by rw [← hcommit]
  have hself : ((world.putLock (h.key commit.owner) none).enter commit.owner .failing).phases
      commit.owner = .failing := (enter_phases _ _ _ _).trans (if_pos rfl)
  have hunlocked : Inv h log ((world.putLock (h.key commit.owner) none).enter commit.owner
      .failing) := hinv.unlocks hworking (by simp) (fits_failing _)
  have hstored := hunlocked.stores hself hunowned hpast hout (by
      intro j row' reservedAt' work' hj hkey
      rw [enter_phases] at hj
      split_ifs at hj with hsame
      exact hsame (hinv.alone hworking hj hkey))
  rw [hrow]
  cases heard with
  | false => exact hstored
  | true =>
      have hfits : Fits h (log ++ [.committed commit]) world.now commit.owner
          (.answered (.success commit.response) : Phase δ ρ ε ω) := by
        refine ⟨fun other hother howner => ?_, fun response hresponse => ?_, by simp, by simp⟩
        · rcases List.mem_append.mp hother with hmem | hmem
          · exact absurd howner (hunowned other hmem)
          · obtain rfl : other = commit := by simpa using hmem
            exact .inr (.inr rfl)
        · cases hresponse
          exact ⟨commit, by simp, rfl, rfl, rfl, .inl rfl⟩
      have hidle : ∀ row reservedAt work, (((world.putLock (h.key commit.owner) none).enter
          commit.owner .failing).phases commit.owner) ≠ .working row reservedAt work := by
        simp
      have hheard : Inv h _ ((((world.putLock (h.key commit.owner) none).putRow
          (h.key commit.owner) _).enter commit.owner .failing).enter commit.owner
          (.answered (.success commit.response))) := hstored.enter hidle (by simp) hfits
      rwa [enter_enter] at hheard

/-! ## One step -/

omit [DecidableEq ι] [DecidableEq κ] in
theorem inv_initial (now : Int) (data : α) :
    Inv h [] (World.initial now data : World ι κ δ ρ ε ω α) where
  apart before first between second after hlog := by simp at hlog
  once before first between second after hlog := by simp at hlog
  fits i := fits_of_unowned (by simp) (by simp [World.initial]) (by simp [World.initial])
    (by simp [World.initial])
  rows key row hrow := by cases hrow
  latest key before commit after hlog := by simp at hlog
  working i row reservedAt work hi := by cases hi
  locked key i hlock := by cases hlock

variable [DecidableEq δ]

omit [DecidableEq κ] in
theorem inv_read (hinv : Inv h log world) (hreading : world.phases i = .reading) (move : μ)
    (heard : Bool) : Inv h log (world.read h i move heard) := by
  have hidle : ∀ row reservedAt work, world.phases i ≠ .working row reservedAt work := by
    simp [hreading]
  have hunowned := (hinv.fits i).unowned (by simp [hreading])
  unfold World.read claim
  cases hrow : world.rows (h.key i) with
  | none => exact hinv.enter hidle (by simp) (fits_failing _)
  | some row =>
      obtain ⟨commit, hcommit, hkey, rfl⟩ := hinv.rows _ row hrow
      by_cases hdigest : h.digest commit.owner = h.digest i
      · simp only [hdigest, ne_eq, not_true_eq_false, if_false]
        cases hreject : h.reject i move commit.response with
        | none =>
            refine hinv.concludes hidle ⟨fun other hother howner => ?_, fun response hanswer => ?_,
              by simp, by simp⟩ heard
            · exact absurd howner (hunowned other hother)
            · cases hanswer
              exact ⟨commit, hcommit, hkey, hdigest, rfl, .inr ⟨move, hreject⟩⟩
        | some refusal =>
            exact hinv.enter hidle (by simp) (fits_of_unowned hunowned (by simp) (by simp)
              (by simp))
      · simp only [ne_eq, hdigest, not_false_eq_true, if_true]
        exact hinv.concludes hidle (fits_of_unowned hunowned (by simp) (by simp) (by simp)) heard

theorem inv_reject (hinv : Inv h log world) {refusal : ε}
    (hrejecting : world.phases i = .rejecting refusal) (heard : Bool) :
    Inv h (log ++ (world.entry h (.reject i heard : Event ι κ μ)).toList)
      (world.reject h i refusal heard) := by
  have hidle : ∀ row reservedAt work, world.phases i ≠ .working row reservedAt work := by
    simp [hrejecting]
  have hunowned := (hinv.fits i).unowned (by simp [hrejecting])
  unfold World.reject
  simp only [World.entry, hrejecting]
  split_ifs
  · have hdeleted := hinv.invalidates (h.key i)
    refine hdeleted.concludes hidle (fits_of_unowned (fun commit hcommit => ?_) (by simp) (by simp)
      (by simp)) heard
    exact hunowned commit (by simpa using hcommit)
  · simpa using hinv.enter hidle (by simp) (fits_failing _)

theorem inv_finish (hinv : Inv h log world) {row : Row δ ρ} {reservedAt : Int} {work : ω}
    {outcome : Except ε ρ} (hworking : world.phases i = .working row reservedAt work)
    (houtcome : h.outcome work = some outcome) (heard : Bool) :
    Inv h (log ++ (world.entry h (.finish i heard : Event ι κ μ)).toList)
      (world.finish h i row heard outcome) := by
  obtain ⟨-, hdigest, hresponse, hpast, hout⟩ := hinv.working i row reservedAt work hworking
  have hreserves : row.reserves (h.digest i) = true := by
    simp [Row.reserves, hdigest, hresponse]
  simp only [World.entry, hworking, houtcome]
  cases outcome with
  | error refusal =>
      have hreleased : release (some row) (h.digest i) = none := by
        unfold release
        rw [Option.filter_some, if_neg (by simp [hreserves])]
      have hunowned := (hinv.fits i).unowned (by simp [hworking])
      simp only [World.finish, hreleased, World.conclude, Option.toList_none, List.append_nil]
      cases heard with
      | false =>
          have hended := hinv.unlocks hworking (by simp) (fits_failing _)
          exact (hended.sweeps (hout.later hpast)).putData _
      | true =>
          have hfits : Fits h log world.now i (.answered (.refused refusal) : Phase δ ρ ε ω) :=
            fits_of_unowned hunowned (by simp) (by simp) (by simp)
          have hended := hinv.unlocks hworking (by simp) hfits
          exact (hended.sweeps (hout.later hpast)).putData _
  | ok response =>
      have hcompleted : complete (some row) (h.digest i) response =
          some { row with response := some response } := by
        unfold complete
        rw [Option.filter_some, if_pos hreserves]
        rfl
      simp only [World.finish, hcompleted, hreserves, if_true, Option.toList_some]
      exact (hinv.commits hworking response heard).putData _

omit [DecidableEq ι] [DecidableEq κ] [DecidableEq δ] in
theorem Inv.tick (hinv : Inv h log world) (time : Int) :
    Inv h log { world with now := max world.now time } where
  apart := hinv.apart
  once := hinv.once
  fits i :=
    { hinv.fits i with
      swept sweptAt askedAt hswept := Int.le_trans ((hinv.fits i).swept sweptAt askedAt hswept)
        (Int.le_max_left _ _) }
  rows := hinv.rows
  latest key := by
    refine (hinv.latest key).later ?_
    simp only [World.freeAt]
    cases world.rows key with
    | none => exact Int.le_max_left _ _
    | some row => exact Int.max_le.mpr ⟨Int.le_trans (Int.le_max_left _ _) (Int.le_max_left _ _),
        Int.le_max_right _ _⟩
  working i row reservedAt work hworking := by
    obtain ⟨hlock, hdigest, hresponse, hpast, hout⟩ := hinv.working i row reservedAt work hworking
    exact ⟨hlock, hdigest, hresponse, Int.le_trans hpast (Int.le_max_left _ _), hout⟩
  locked := hinv.locked

omit [DecidableEq δ] in
theorem inv_insert (hinv : Inv h log world) {sweptAt askedAt : Int}
    (hinserting : world.phases i = .inserting sweptAt askedAt)
    (hlock : world.locks (h.key i) = none) : Inv h log (world.insert h i sweptAt askedAt) := by
  have hidle : ∀ row reservedAt work, world.phases i ≠ .working row reservedAt work := by
    simp [hinserting]
  have hunowned := (hinv.fits i).unowned (by simp [hinserting])
  unfold World.insert
  split_ifs with hlive
  · exact hinv.enter hidle (by simp) (fits_of_unowned hunowned (by simp) (by simp) (by simp))
  · refine hinv.reserves (by simp [hinserting]) hidle hlock fun old hold => ?_
    -- The row has run out by the instant at which the request deleted such rows.
    have hdead : ¬ sweptAt < old.expiresAt := by simpa [hold] using hlive
    exact Int.le_trans (Int.not_lt.mp hdead)
      ((hinv.fits i).swept sweptAt askedAt (.inr hinserting))

omit [DecidableEq ι] [DecidableEq κ] in
/-- The release of a failed request finds no row of its own. -/
theorem Inv.released (hinv : Inv h log world) (key : κ) (digest : δ) :
    release (world.rows key) digest = world.rows key := by
  unfold release
  cases hrow : world.rows key with
  | none => rfl
  | some row =>
      obtain ⟨commit, -, -, rfl⟩ := hinv.rows key row hrow
      rw [Option.filter_some, if_pos]
      simp [Row.reserves]

omit [DecidableEq ι] [DecidableEq δ] in
theorem putRow_self (world : World ι κ δ ρ ε ω α) (key : κ) :
    world.putRow key (world.rows key) = world := by
  unfold World.putRow
  rw [Function.update_eq_self]

omit [DecidableEq δ] in
theorem Inv.aborts (hinv : Inv h log world) {row : Row δ ρ} {reservedAt : Int} {work : ω}
    (hworking : world.phases i = .working row reservedAt work) : Inv h log (world.abort h i) :=
  (hinv.unlocks hworking (by simp) (fits_failing _)).putData _

omit [DecidableEq δ] in
theorem inv_fail (hinv : Inv h log world) (i : ι) : Inv h log (world.fail h i) := by
  unfold World.fail
  split
  · rename_i row reservedAt work hworking
    exact hinv.aborts hworking
  · exact hinv
  · rename_i hidle _
    exact hinv.enter (fun row reservedAt work => hidle row reservedAt work) (by simp)
      (fits_failing _)

theorem inv_step (hinv : Inv h log world) (event : Event ι κ μ) :
    Inv h (log ++ (world.entry h event).toList) (world.step h event) := by
  cases event with
  | tick time =>
      simp only [World.entry, World.step, Option.toList_none, List.append_nil]
      exact hinv.tick time
  | sweep key =>
      simp only [World.entry, World.step, Option.toList_none, List.append_nil]
      split_ifs with hexpired
      · refine hinv.sweeps (hinv.runOut fun row hrow => ?_)
        simpa [hrow] using hexpired
      · exact hinv
  | begin i =>
      simp only [World.entry, World.step, Option.toList_none, List.append_nil]
      split
      · rename_i hstart
        have hunowned := (hinv.fits i).unowned (by simp [hstart])
        exact hinv.enter (by simp [hstart]) (by simp)
          (fits_of_unowned hunowned (by simp) (by simp) (by simp))
      · exact hinv
  | ask i =>
      simp only [World.entry, World.step, Option.toList_none, List.append_nil]
      split
      · rename_i sweptAt hswept
        have hunowned := (hinv.fits i).unowned (by simp [hswept])
        have hpast := (hinv.fits i).swept sweptAt 0 (.inl hswept)
        exact hinv.enter (by simp [hswept]) (by simp)
          (fits_of_unowned hunowned (by simp) (by simp) (by simpa using hpast))
      · exact hinv
  | insert i =>
      simp only [World.entry, World.step, Option.toList_none, List.append_nil]
      split
      · rename_i sweptAt askedAt hinserting hlock
        exact inv_insert hinv hinserting hlock
      · exact hinv
  | read i move heard =>
      simp only [World.entry, World.step, Option.toList_none, List.append_nil]
      split
      · rename_i hreading
        exact inv_read hinv hreading move heard
      · exact hinv
  | reject i heard =>
      simp only [World.step]
      split
      · rename_i refusal hrejecting
        exact inv_reject hinv hrejecting heard
      · rename_i hother
        have hnone : world.entry h (.reject i heard : Event ι κ μ) = none := by
          simp only [World.entry]
        simpa [hnone] using hinv
  | work i move =>
      simp only [World.entry, World.step, Option.toList_none, List.append_nil]
      split
      · rename_i row reservedAt work hworking
        split
        · exact hinv
        · exact (hinv.works hworking).putData _
      · exact hinv
  | finish i heard =>
      simp only [World.step]
      split
      · rename_i row reservedAt work hworking
        split
        · rename_i hnone
          simpa [World.entry, hworking, hnone] using hinv
        · rename_i outcome houtcome
          exact inv_finish hinv hworking houtcome heard
      · rename_i hother
        have hnone : world.entry h (.finish i heard : Event ι κ μ) = none := by
          simp only [World.entry]
        simpa [hnone] using hinv
  | fail i =>
      simp only [World.entry, World.step, Option.toList_none, List.append_nil]
      exact inv_fail hinv i
  | release i committed =>
      simp only [World.entry, World.step, Option.toList_none, List.append_nil]
      split
      · rename_i hfailing
        rw [hinv.released, putRow_self, ite_self]
        exact hinv.enter (by simp [hfailing]) (by simp)
          ⟨fun _ _ _ => .inr (.inl rfl), by simp, by simp, by simp⟩
      · exact hinv

end Keep

/-- **One response for a key.**  Every run of any number of requests is lawful. -/
theorem lawful_run {ι κ δ ρ ε ω μ α : Type} [DecidableEq ι] [DecidableEq κ] [DecidableEq δ]
    (h : Handler ι κ δ ρ ε ω μ α) (now : Int) (data : α) (events : List (Event ι κ μ)) :
    Lawful h (outputs (World.step h) (World.entry h) (World.initial now data) events)
      (run (World.step h) (World.initial now data) events) :=
  (outputs_invariant (Inv h) (fun _ _ event hinv => inv_step hinv event) (inv_initial now data)
    events).lawful

/-! ## The rest of the database -/

section Data

variable {ι κ δ ρ ε ω μ α : Type}

def Phase.work? : Phase δ ρ ε ω → Option ω
  | .working _ _ work => some work
  | _ => none

/-- The work that each request has under way. -/
def World.underWay (world : World ι κ δ ρ ε ω α) (i : ι) : Option ω := (world.phases i).work?

variable [DecidableEq ι] (h : Handler ι κ δ ρ ε ω μ α)

/-- What a step does to the rest of the database and to the work that is under way. -/
inductive Effect (data : α) (underWay : ι → Option ω) :
    Option (Entry ι κ ρ) → α → (ι → Option ω) → Prop
  | still (entry : Option (Entry ι κ ρ)) (hentry : ∀ commit, entry ≠ some (.committed commit)) :
      Effect data underWay entry data underWay
  | started (i : ι) (hnone : underWay i = none) :
      Effect data underWay none data (Function.update underWay i (some h.start))
  | worked (i : ι) (move : μ) (work work' : ω) (data' : α) (hwork : underWay i = some work)
      (hmove : h.work i move data work = some (work', data')) :
      Effect data underWay none data' (Function.update underWay i (some work'))
  | aborted (i : ι) (work : ω) (hwork : underWay i = some work) :
      Effect data underWay none (h.abort i data) (Function.update underWay i none)
  | refused (i : ι) (work : ω) (refusal : ε) (hwork : underWay i = some work)
      (houtcome : h.outcome work = some (.error refusal)) :
      Effect data underWay none (h.commit i data) (Function.update underWay i none)
  | completed (work : ω) (commit : Commit ι ρ) (hwork : underWay commit.owner = some work)
      (houtcome : h.outcome work = some (.ok commit.response)) :
      Effect data underWay (some (.committed commit)) (h.commit commit.owner data)
        (Function.update underWay commit.owner none)

theorem enter_underWay (world : World ι κ δ ρ ε ω α) (i : ι) (phase : Phase δ ρ ε ω) :
    (world.enter i phase).underWay = Function.update world.underWay i phase.work? := by
  funext j
  unfold World.underWay
  rw [enter_phases, Function.update_apply]
  split_ifs <;> rfl

variable {h}

/-- A request that does not work enters a phase in which it does not work. -/
theorem effect_enter {world : World ι κ δ ρ ε ω α} {i : ι} {phase : Phase δ ρ ε ω}
    (hbefore : (world.phases i).work? = none) (hafter : phase.work? = none)
    {entry : Option (Entry ι κ ρ)} (hentry : ∀ commit, entry ≠ some (.committed commit)) :
    Effect h world.data world.underWay entry world.data (world.enter i phase).underWay := by
  rw [enter_underWay, hafter, ← hbefore]
  have hsame : Function.update world.underWay i (world.phases i).work? = world.underWay :=
    Function.update_eq_self i world.underWay
  rw [hsame]
  exact .still entry hentry

theorem effect_conclude {world : World ι κ δ ρ ε ω α} {i : ι} {answer : Answer ρ ε}
    (hbefore : (world.phases i).work? = none) (heard : Bool) {entry : Option (Entry ι κ ρ)}
    (hentry : ∀ commit, entry ≠ some (.committed commit)) :
    Effect h world.data world.underWay entry world.data
      (world.conclude i answer heard).underWay := by
  unfold World.conclude
  cases heard with
  | false => exact effect_enter hbefore rfl hentry
  | true => exact effect_enter hbefore rfl hentry

variable [DecidableEq κ]

theorem effect_abort {world : World ι κ δ ρ ε ω α} {i : ι} {work : ω}
    (hwork : world.underWay i = some work) :
    Effect h world.data world.underWay none (world.abort h i).data
      (world.abort h i).underWay := by
  have hended : (world.abort h i).underWay = Function.update world.underWay i none :=
    enter_underWay _ i .failing
  rw [hended]
  exact .aborted i work hwork

variable [DecidableEq δ]

theorem effect_finish {world : World ι κ δ ρ ε ω α} {i : ι} {row : Row δ ρ} {reservedAt : Int}
    {work : ω} {outcome : Except ε ρ} (hworking : world.phases i = .working row reservedAt work)
    (houtcome : h.outcome work = some outcome) (heard : Bool) :
    Effect h world.data world.underWay (world.entry h (.finish i heard : Event ι κ μ))
      (world.finish h i row heard outcome).data
      (world.finish h i row heard outcome).underWay := by
  have hwork : world.underWay i = some work := by
    unfold World.underWay
    rw [hworking]
    rfl
  simp only [World.entry, hworking, houtcome]
  cases outcome with
  | error refusal =>
      have hended : (world.finish h i row heard (.error refusal)).underWay =
          Function.update world.underWay i none := by
        cases heard <;> exact enter_underWay _ i _
      rw [hended]
      exact .refused i work refusal hwork houtcome
  | ok response =>
      by_cases hreserves : row.reserves (h.digest i) = true
      · have hcompleted : complete (some row) (h.digest i) response =
            some { row with response := some response } := by
          unfold complete
          rw [Option.filter_some, if_pos hreserves]
          rfl
        have hended : (world.finish h i row heard (.ok response)).underWay =
            Function.update world.underWay i none := by
          simp only [World.finish, hcompleted]
          cases heard <;> exact enter_underWay _ i _
        have hdata : (world.finish h i row heard (.ok response)).data =
            h.commit i world.data := by
          simp only [World.finish, hcompleted]
          cases heard <;> rfl
        rw [hended, hdata]
        simp only [hreserves, if_true]
        exact .completed work ⟨i, response, _, _⟩ hwork houtcome
      · have hlost : complete (some row) (h.digest i) response = none := by
          unfold complete
          rw [Option.filter_some, if_neg hreserves]
          rfl
        simp only [World.finish, hlost, if_neg hreserves]
        exact effect_abort hwork

omit [DecidableEq κ] in
theorem effect_read {world : World ι κ δ ρ ε ω α} {i : ι} (hreading : world.phases i = .reading)
    (move : μ) (heard : Bool) :
    Effect h world.data world.underWay (none : Option (Entry ι κ ρ))
      (world.read h i move heard).data (world.read h i move heard).underWay := by
  have hidle : (world.phases i).work? = none := by
    rw [hreading]
    rfl
  unfold World.read
  split
  · exact effect_enter hidle rfl (by simp)
  · exact effect_conclude hidle heard (by simp)
  · exact effect_conclude hidle heard (by simp)
  · split
    · exact effect_conclude hidle heard (by simp)
    · exact effect_enter hidle rfl (by simp)

omit [DecidableEq δ] in
theorem effect_insert {world : World ι κ δ ρ ε ω α} {i : ι} {sweptAt askedAt : Int}
    (hinserting : world.phases i = .inserting sweptAt askedAt) :
    Effect h world.data world.underWay (none : Option (Entry ι κ ρ))
      (world.insert h i sweptAt askedAt).data (world.insert h i sweptAt askedAt).underWay := by
  have hidle : (world.phases i).work? = none := by
    rw [hinserting]
    rfl
  unfold World.insert
  split_ifs
  · exact effect_enter hidle rfl (by simp)
  · rw [enter_underWay]
    exact .started i hidle

/-- **Inversion.**  What a step does to the rest of the database. -/
theorem step_effect (world : World ι κ δ ρ ε ω α) (event : Event ι κ μ) :
    Effect h world.data world.underWay (world.entry h event) (world.step h event).data
      (world.step h event).underWay := by
  have hstill : Effect h world.data world.underWay (none : Option (Entry ι κ ρ)) world.data
      world.underWay := .still none (by simp)
  cases event with
  | tick time => exact hstill
  | sweep key =>
      simp only [World.entry, World.step]
      split_ifs
      · exact hstill
      · exact hstill
  | begin i =>
      simp only [World.entry, World.step]
      split
      · rename_i hstart
        exact effect_enter (by simp [hstart, Phase.work?]) rfl (by simp)
      · exact hstill
  | ask i =>
      simp only [World.entry, World.step]
      split
      · rename_i sweptAt hswept
        exact effect_enter (by simp [hswept, Phase.work?]) rfl (by simp)
      · exact hstill
  | insert i =>
      simp only [World.entry, World.step]
      split
      · rename_i sweptAt askedAt hinserting _
        exact effect_insert hinserting
      · exact hstill
  | read i move heard =>
      simp only [World.entry, World.step]
      split
      · rename_i hreading
        exact effect_read hreading move heard
      · exact hstill
  | reject i heard =>
      simp only [World.entry, World.step]
      split
      · rename_i refusal hrejecting
        have hidle : (world.phases i).work? = none := by simp [hrejecting, Phase.work?]
        unfold World.reject
        split_ifs
        · exact effect_conclude hidle heard (by simp)
        · exact effect_enter hidle rfl (by simp)
      · exact hstill
  | work i move =>
      simp only [World.entry, World.step]
      split
      · rename_i row reservedAt work hworking
        have hwork : world.underWay i = some work := by simp [World.underWay, hworking, Phase.work?]
        split
        · exact hstill
        · rename_i work' data' hmove
          rw [enter_underWay]
          exact .worked i move work work' data' hwork hmove
      · exact hstill
  | finish i heard =>
      simp only [World.step]
      split
      · rename_i row reservedAt work hworking
        split
        · rename_i hnone
          simpa [World.entry, hworking, hnone] using hstill
        · rename_i outcome houtcome
          exact effect_finish hworking houtcome heard
      · rename_i hother
        have hnone : world.entry h (.finish i heard : Event ι κ μ) = none := by
          simp only [World.entry]
        rw [hnone]
        exact hstill
  | fail i =>
      simp only [World.entry, World.step, World.fail]
      split
      · rename_i row reservedAt work hworking
        have hwork : world.underWay i = some work := by simp [World.underWay, hworking, Phase.work?]
        exact effect_abort hwork
      · exact hstill
      · rename_i hidle _
        refine effect_enter ?_ rfl (by simp)
        unfold Phase.work?
        split
        · rename_i row reservedAt work hworking
          exact (hidle row reservedAt work hworking).elim
        · rfl
  | release i committed =>
      simp only [World.entry, World.step]
      split
      · rename_i hfailing
        split_ifs
        · exact effect_enter (by simp [hfailing, Phase.work?]) rfl (by simp)
        · exact effect_enter (by simp [hfailing, Phase.work?]) rfl (by simp)
      · exact hstill

/-- **Invariant rule.**  What holds of the rest of the database at the start, and is kept by what
the work of the requests does to it, holds at the end of every run. -/
theorem data_invariant (P : List (Entry ι κ ρ) → α → (ι → Option ω) → Prop) {data : α}
    (hinitial : P [] data fun _ => none)
    (hkeep : ∀ log data underWay entry data' underWay', P log data underWay →
      Effect h data underWay entry data' underWay' → P (log ++ entry.toList) data' underWay')
    (now : Int) (events : List (Event ι κ μ)) :
    P (outputs (World.step h) (World.entry h) (World.initial now data) events)
      (run (World.step h) (World.initial now data) events).data
      (run (World.step h) (World.initial now data) events).underWay := by
  have hstep : ∀ log (world : World ι κ δ ρ ε ω α) event, P log world.data world.underWay →
      P (log ++ (world.entry h event).toList) (world.step h event).data
        (world.step h event).underWay :=
    fun log world event hlog => hkeep log _ _ _ _ _ hlog (step_effect world event)
  have hstart : P [] (World.initial now data : World ι κ δ ρ ε ω α).data
      (World.initial now data : World ι κ δ ρ ε ω α).underWay := hinitial
  exact outputs_invariant (fun log (world : World ι κ δ ρ ε ω α) => P log world.data world.underWay)
    hstep hstart events

/-- What the work of every request keeps, and so gives its response. -/
structure Carries (h : Handler ι κ δ ρ ε ω μ α) (Q : ι → ω → Prop) (R : ι → ρ → Prop) : Prop where
  start : ∀ i, Q i h.start
  work : ∀ i move data work work' data', Q i work →
    h.work i move data work = some (work', data') → Q i work'
  outcome : ∀ i work response, Q i work → h.outcome work = some (.ok response) → R i response

variable {Q : ι → ω → Prop} {R : ι → ρ → Prop}

omit [DecidableEq κ] [DecidableEq δ] in
theorem Carries.effect (hcarries : Carries h Q R) {log : List (Entry ι κ ρ)} {data data' : α}
    {underWay underWay' : ι → Option ω} {entry : Option (Entry ι κ ρ)}
    (hworks : ∀ i work, underWay i = some work → Q i work)
    (hlog : ∀ commit, .committed commit ∈ log → R commit.owner commit.response)
    (heffect : Effect h data underWay entry data' underWay') :
    (∀ i work, underWay' i = some work → Q i work) ∧
      ∀ commit, .committed commit ∈ log ++ entry.toList → R commit.owner commit.response := by
  have hput : ∀ i work, (∀ work', work = some work' → Q i work') →
      ∀ j work', Function.update underWay i work j = some work' → Q j work' := by
    intro i work hi j work' hj
    rw [Function.update_apply] at hj
    split_ifs at hj with hsame
    · rw [hsame]
      exact hi work' hj
    · exact hworks j work' hj
  have hnone : ∀ i work', (none : Option ω) = some work' → Q i work' := fun _ _ h => by cases h
  cases heffect with
  | still entry hentry =>
      refine ⟨hworks, fun commit hcommit => ?_⟩
      rcases List.mem_append.mp hcommit with hmem | hmem
      · exact hlog commit hmem
      · exact absurd (Option.mem_toList.mp hmem) (hentry commit)
  | started i _ =>
      refine ⟨hput i _ ?_, by simpa using hlog⟩
      rintro work hwork
      cases hwork
      exact hcarries.start i
  | worked i move work work' data' hwork hmove =>
      refine ⟨hput i _ ?_, by simpa using hlog⟩
      rintro work'' hwork''
      cases hwork''
      exact hcarries.work i move data work work' data' (hworks i work hwork) hmove
  | aborted i work hwork => exact ⟨hput i none (hnone i), by simpa using hlog⟩
  | refused i work refusal hwork houtcome => exact ⟨hput i none (hnone i), by simpa using hlog⟩
  | completed work commit hwork houtcome =>
      refine ⟨hput commit.owner none (hnone commit.owner), fun other hother => ?_⟩
      rcases List.mem_append.mp hother with hmem | hmem
      · exact hlog other hmem
      · obtain rfl : other = commit := by simpa using hmem
        exact hcarries.outcome _ work _ (hworks _ work hwork) houtcome

/-- What the work carries is so of every committed response. -/
theorem Carries.committed (hcarries : Carries h Q R) (now : Int) (data : α)
    (events : List (Event ι κ μ)) (commit : Commit ι ρ)
    (hcommit : .committed commit ∈ outputs (World.step h) (World.entry h) (World.initial now data)
      events) : R commit.owner commit.response := by
  let P : List (Entry ι κ ρ) → α → (ι → Option ω) → Prop := fun log _ underWay =>
    (∀ i work, underWay i = some work → Q i work) ∧
      ∀ commit, .committed commit ∈ log → R commit.owner commit.response
  have hinitial : P [] data fun _ => none := by
    refine ⟨fun i work hwork => ?_, by simp⟩
    cases hwork
  have hkeep : ∀ log data underWay entry data' underWay', P log data underWay →
      Effect h data underWay entry data' underWay' → P (log ++ entry.toList) data' underWay' :=
    fun _ _ _ _ _ _ hP heffect => hcarries.effect hP.1 hP.2 heffect
  exact (data_invariant P hinitial hkeep now events).2 commit hcommit

/-- So it is of the response of a request that succeeds, when a response that is replayed is
checked for it. -/
theorem Carries.success (hcarries : Carries h Q R)
    (hreject : ∀ i move response, h.reject i move response = none → R i response) (now : Int)
    (data : α) (events : List (Event ι κ μ)) (i : ι) (response : ρ)
    (hsuccess : (run (World.step h) (World.initial now data) events).phases i =
      .answered (.success response)) : R i response := by
  obtain ⟨commit, hcommit, -, -, rfl, rfl | ⟨move, haccepted⟩⟩ :=
    (lawful_run h now data events).answers i response hsuccess
  · exact hcarries.committed now data events commit hcommit
  · exact hreject i move _ haccepted

end Data

end Reservations
