import Mathlib.Logic.Function.Basic
import Mathlib.Tactic.SplitIfs
import MuniRag.Lib.Runs

/-!
# Reserved keys

A request reserves its idempotency key, does its work and stores the response under the key in one
transaction, under `READ COMMITTED`; a later request of the key is given the stored response until
that has run out, or is found unusable and deleted.  The statements of any number of requests are
interleaved.  A transaction may fail at each of them, and may be committed without a reply; in
both cases the request then releases in a second transaction what it may have reserved.

An insertion waits for an open transaction that has inserted its key, and stamps the row with the
instant at which it began to wait.  No other statement is made to wait, so there are more runs here
than in a database.
-/

namespace Reservations

open Runs

/-- A row of the table of keys; it has a response when the work is completed. -/
structure Row (δ ρ : Type) where
  digest : δ
  response : Option ρ
  expiresAt : Int
  deriving DecidableEq, Repr

/-- What a request reads under a key that it could not insert. -/
inductive Claim (ρ : Type)
  | disappeared
  | conflict
  | inProgress
  | replay (response : ρ)
  deriving DecidableEq, Repr

/-- `ε` is how the work refuses a request. -/
inductive Answer (ρ ε : Type)
  | success (response : ρ)
  | conflict
  | inProgress
  | refused (refusal : ε)
  | failed
  deriving DecidableEq, Repr

/-- Where a request is.  It knows when it deleted the rows that had run out, when it asked for the
insertion of its key, and, once it works, the row that it inserted and when. -/
inductive Phase (δ ρ ε ω : Type)
  | start
  | swept (sweptAt : Int)
  | inserting (sweptAt askedAt : Int)
  | reading
  | rejecting (refusal : ε)
  | working (row : Row δ ρ) (reservedAt : Int) (work : ω)
  | failing
  | answered (answer : Answer ρ ε)
  deriving DecidableEq, Repr

/-- What a handler adds to the protocol.  `α` is the rest of the database, in which what an open
transaction has written is kept apart. -/
structure Handler (ι κ δ ρ ε ω μ α : Type) where
  key : ι → κ
  digest : ι → δ
  lifetime : Int
  /-- How a stored response is judged; `none` where it is replayed. -/
  reject : ι → μ → ρ → Option ε
  start : ω
  /-- A step of the work; `none` where it waits. -/
  work : ι → μ → α → ω → Option (ω × α)
  /-- What the work comes to; `none` where it goes on. -/
  outcome : ω → Option (Except ε ρ)
  commit : ι → α → α
  abort : ι → α → α

section Statements

variable {δ ρ : Type} [DecidableEq δ]

/-- The row is an unfinished one of the request. -/
def Row.reserves (digest : δ) (row : Row δ ρ) : Bool :=
  decide (row.digest = digest) && row.response.isNone

def claim (row : Option (Row δ ρ)) (digest : δ) : Claim ρ :=
  match row with
  | none => .disappeared
  | some row =>
      if row.digest ≠ digest then .conflict
      else match row.response with
        | none => .inProgress
        | some response => .replay response

/-- The completed row; `none` where no row is updated. -/
def complete (row : Option (Row δ ρ)) (digest : δ) (response : ρ) : Option (Row δ ρ) :=
  (row.filter (Row.reserves digest)).map fun row => { row with response := some response }

def release (row : Option (Row δ ρ)) (digest : δ) : Option (Row δ ρ) :=
  row.filter fun row => !row.reserves digest

/-- A stored response of the request is deleted. -/
def invalidates (row : Option (Row δ ρ)) (digest : δ) : Bool :=
  row.any fun row => decide (row.digest = digest) && row.response.isSome

end Statements

structure World (ι κ δ ρ ε ω α : Type) where
  now : Int
  rows : κ → Option (Row δ ρ)
  locks : κ → Option ι
  phases : ι → Phase δ ρ ε ω
  data : α

/-- The clock goes forward, some transaction deletes a row that has run out, or a request comes to
its next statement; `heard` says whether the reply of a commit arrives. -/
inductive Event (ι κ μ : Type)
  | tick (time : Int)
  | sweep (key : κ)
  | begin (i : ι)
  | ask (i : ι)
  | insert (i : ι)
  | read (i : ι) (move : μ) (heard : Bool)
  | reject (i : ι) (heard : Bool)
  | work (i : ι) (move : μ)
  | finish (i : ι) (heard : Bool)
  | fail (i : ι)
  | release (i : ι) (committed : Bool)

section Steps

variable {ι κ δ ρ ε ω μ α : Type} [DecidableEq ι] [DecidableEq κ] [DecidableEq δ]

def World.enter (world : World ι κ δ ρ ε ω α) (i : ι) (phase : Phase δ ρ ε ω) :
    World ι κ δ ρ ε ω α :=
  { world with phases := Function.update world.phases i phase }

def World.putRow (world : World ι κ δ ρ ε ω α) (key : κ) (row : Option (Row δ ρ)) :
    World ι κ δ ρ ε ω α :=
  { world with rows := Function.update world.rows key row }

def World.putLock (world : World ι κ δ ρ ε ω α) (key : κ) (lock : Option ι) :
    World ι κ δ ρ ε ω α :=
  { world with locks := Function.update world.locks key lock }

def World.putData (world : World ι κ δ ρ ε ω α) (data : α) : World ι κ δ ρ ε ω α :=
  { world with data }

section Frames

variable (world : World ι κ δ ρ ε ω α) (i j : ι) (phase : Phase δ ρ ε ω) (key other : κ)

omit [DecidableEq κ] [DecidableEq δ] in
@[simp] theorem enter_phases : (world.enter i phase).phases j =
    if j = i then phase else world.phases j := Function.update_apply _ _ _ _

omit [DecidableEq ι] [DecidableEq δ] in
@[simp] theorem putRow_rows (row : Option (Row δ ρ)) : (world.putRow key row).rows other =
    if other = key then row else world.rows other := Function.update_apply _ _ _ _

omit [DecidableEq ι] [DecidableEq δ] in
@[simp] theorem putLock_locks (lock : Option ι) : (world.putLock key lock).locks other =
    if other = key then lock else world.locks other := Function.update_apply _ _ _ _

end Frames

/-- The transaction of a request is committed, and the request answers if it hears of that. -/
def World.conclude (world : World ι κ δ ρ ε ω α) (i : ι) (answer : Answer ρ ε) (heard : Bool) :
    World ι κ δ ρ ε ω α :=
  world.enter i (if heard then .answered answer else .failing)

variable (h : Handler ι κ δ ρ ε ω μ α)

/-- The insertion of the key, which conflicts with a row unless the request has deleted it. -/
def World.insert (world : World ι κ δ ρ ε ω α) (i : ι) (sweptAt askedAt : Int) :
    World ι κ δ ρ ε ω α :=
  if (world.rows (h.key i)).any fun row => decide (sweptAt < row.expiresAt) then
    world.enter i .reading
  else
    (world.putLock (h.key i) (some i)).enter i
      (.working ⟨h.digest i, none, askedAt + h.lifetime⟩ world.now h.start)

def World.read (world : World ι κ δ ρ ε ω α) (i : ι) (move : μ) (heard : Bool) :
    World ι κ δ ρ ε ω α :=
  match claim (world.rows (h.key i)) (h.digest i) with
  | .disappeared => world.enter i .failing
  | .conflict => world.conclude i .conflict heard
  | .inProgress => world.conclude i .inProgress heard
  | .replay response =>
      match h.reject i move response with
      | none => world.conclude i (.success response) heard
      | some refusal => world.enter i (.rejecting refusal)

def World.reject (world : World ι κ δ ρ ε ω α) (i : ι) (refusal : ε) (heard : Bool) :
    World ι κ δ ρ ε ω α :=
  if invalidates (world.rows (h.key i)) (h.digest i) then
    (world.putRow (h.key i) none).conclude i (.refused refusal) heard
  else world.enter i .failing

/-- The transaction of a working request is rolled back. -/
def World.abort (world : World ι κ δ ρ ε ω α) (i : ι) : World ι κ δ ρ ε ω α :=
  ((world.putData (h.abort i world.data)).putLock (h.key i) none).enter i .failing

/-- The end of the work: the row is completed, or released where the request is refused. -/
def World.finish (world : World ι κ δ ρ ε ω α) (i : ι) (row : Row δ ρ) (heard : Bool) :
    Except ε ρ → World ι κ δ ρ ε ω α
  | .error refusal =>
      (((world.putData (h.commit i world.data)).putLock (h.key i) none).putRow (h.key i)
        (release (some row) (h.digest i))).conclude i (.refused refusal) heard
  | .ok response =>
      match complete (some row) (h.digest i) response with
      | none => world.abort h i
      | some completed =>
          (((world.putData (h.commit i world.data)).putLock (h.key i) none).putRow (h.key i)
            (some completed)).conclude i (.success response) heard

def World.fail (world : World ι κ δ ρ ε ω α) (i : ι) : World ι κ δ ρ ε ω α :=
  match world.phases i with
  | .working _ _ _ => world.abort h i
  | .answered _ => world
  | _ => world.enter i .failing

def World.step (world : World ι κ δ ρ ε ω α) : Event ι κ μ → World ι κ δ ρ ε ω α
  | .tick time => { world with now := max world.now time }
  | .sweep key =>
      if (world.rows key).any fun row => decide (row.expiresAt ≤ world.now) then
        world.putRow key none
      else world
  | .begin i =>
      match world.phases i with
      | .start => world.enter i (.swept world.now)
      | _ => world
  | .ask i =>
      match world.phases i with
      | .swept sweptAt => world.enter i (.inserting sweptAt world.now)
      | _ => world
  | .insert i =>
      match world.phases i, world.locks (h.key i) with
      | .inserting sweptAt askedAt, none => world.insert h i sweptAt askedAt
      | _, _ => world
  | .read i move heard =>
      match world.phases i with
      | .reading => world.read h i move heard
      | _ => world
  | .reject i heard =>
      match world.phases i with
      | .rejecting refusal => world.reject h i refusal heard
      | _ => world
  | .work i move =>
      match world.phases i with
      | .working row reservedAt work =>
          match h.work i move world.data work with
          | none => world
          | some (work, data) => (world.putData data).enter i (.working row reservedAt work)
      | _ => world
  | .finish i heard =>
      match world.phases i with
      | .working row _ work =>
          match h.outcome work with
          | none => world
          | some outcome => world.finish h i row heard outcome
      | _ => world
  | .fail i => world.fail h i
  | .release i committed =>
      match world.phases i with
      | .failing =>
          (if committed then
            world.putRow (h.key i) (release (world.rows (h.key i)) (h.digest i))
          else world).enter i (.answered .failed)
      | _ => world

def World.initial (now : Int) (data : α) : World ι κ δ ρ ε ω α :=
  ⟨now, fun _ => none, fun _ => none, fun _ => .start, data⟩

end Steps

/-! ## The history -/

/-- A committed execution of a request. -/
structure Commit (ι ρ : Type) where
  owner : ι
  response : ρ
  askedAt : Int
  reservedAt : Int
  deriving DecidableEq, Repr

inductive Entry (ι κ ρ : Type)
  | committed (commit : Commit ι ρ)
  | invalidated (key : κ)
  deriving DecidableEq, Repr

section Laws

variable {ι κ δ ρ ε ω μ α : Type}

/-- What a step adds to the history. -/
def World.entry [DecidableEq δ] (h : Handler ι κ δ ρ ε ω μ α) (world : World ι κ δ ρ ε ω α) :
    Event ι κ μ → Option (Entry ι κ ρ)
  | .reject i _ =>
      match world.phases i with
      | .rejecting _ =>
          if invalidates (world.rows (h.key i)) (h.digest i) then some (.invalidated (h.key i))
          else none
      | _ => none
  | .finish i _ =>
      match world.phases i with
      | .working row reservedAt work =>
          match h.outcome work with
          | some (.ok response) =>
              if row.reserves (h.digest i) then
                some (.committed ⟨i, response, row.expiresAt - h.lifetime, reservedAt⟩)
              else none
          | _ => none
      | _ => none
  | _ => none

variable (h : Handler ι κ δ ρ ε ω μ α)

/-- What the history explains.  A key is not reserved again until the execution before has run
out, unless its response was deleted in between; a request is executed once, and then succeeds
with its own response or has not heard of it; who succeeds is given the response of an execution
of the same request, and of another request's only what it does not reject; and a row is that of
an execution. -/
structure Lawful (log : List (Entry ι κ ρ)) (world : World ι κ δ ρ ε ω α) : Prop where
  apart : ∀ before first between second after,
    log = before ++ .committed first :: between ++ .committed second :: after →
    h.key first.owner = h.key second.owner → .invalidated (h.key first.owner) ∉ between →
    first.askedAt + h.lifetime ≤ second.reservedAt
  once : ∀ before first between second after,
    log = before ++ .committed first :: between ++ .committed second :: after →
    first.owner ≠ second.owner
  ends : ∀ commit, .committed commit ∈ log → world.phases commit.owner = .failing ∨
    world.phases commit.owner = .answered .failed ∨
    world.phases commit.owner = .answered (.success commit.response)
  answers : ∀ i response, world.phases i = .answered (.success response) →
    ∃ commit, .committed commit ∈ log ∧ h.key commit.owner = h.key i ∧
      h.digest commit.owner = h.digest i ∧ commit.response = response ∧
      (commit.owner = i ∨ ∃ move, h.reject i move response = none)
  rows : ∀ key row, world.rows key = some row → ∃ commit, .committed commit ∈ log ∧
    h.key commit.owner = key ∧
    row = ⟨h.digest commit.owner, some commit.response, commit.askedAt + h.lifetime⟩
  never : ∀ i, world.phases i ≠ .answered .inProgress

end Laws

end Reservations
