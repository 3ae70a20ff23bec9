import MuniRag.Ingestion.System

/-!
# The bounded read of an immutable object

`readBoundedImmutableObject`: the reader of a store answers with a reference, a
declared length and a stream of chunks; the read accepts the stream only when
every chunk holds bytes and their total is the declared length, and it never
keeps more bytes than the policy allows.  The deadline of the read is left out:
the runs here are those that end before it.
-/

namespace Ingestion

/-! ## Numbers and errors -/

/-- A JavaScript number: an integer, or one that `Number.isSafeInteger` refuses
anyway (a fraction, an infinity, `NaN`). -/
inductive SizeNumber
  | integer (value : Int)
  | other
  deriving DecidableEq, Repr

/-- The value of a number that is a safe integer between two bounds. -/
def SizeNumber.within (lowest highest : Nat) : SizeNumber → Option Nat
  | .integer value =>
      if value.natAbs ≤ 9007199254740991 ∧ (lowest : Int) ≤ value ∧ value ≤ highest then
        some value.toNat
      else none
  | .other => none

/-- What the read throws: an `ArtifactObjectStoreError`, the same with the error
that caused it, or an error `E` that is none. -/
inductive ReadError (E : Type)
  | store (code message : JsString) (retryable : Bool)
  | caused (code message : JsString) (retryable : Bool) (cause : ReadError E)
  | foreign (error : E)
  deriving DecidableEq, Repr

/-! ## What the store answers -/

/-- What one `iterator.next()` comes to. -/
inductive NextResult (E : Type)
  | bytes (chunk : List UInt8)
  | notBytes
  | rejected (error : ReadError E)
  | done
  deriving DecidableEq, Repr

/-- An `AsyncIterator`: the result of each `next()`, in the order of the calls,
and whether it has a `return`. -/
structure ByteIterator (E : Type) where
  next : Nat → NextResult E
  hasReturn : Bool

/-- The body of an answer: not an async iterable, one whose iterator cannot be
had, or one with its iterator. -/
inductive ObjectBody (E : Type)
  | absent
  | broken (error : ReadError E)
  | stream (iterator : ByteIterator E)

/-- `ImmutableArtifactObject`. -/
structure ImmutableArtifactObject (E : Type) where
  reference : ArtifactObjectReference
  contentLength : SizeNumber
  body : ObjectBody E

/-- `ArtifactObjectReader.readObject` with its `maxBytes`. -/
abbrev ArtifactObjectReader (E : Type) :=
  ArtifactObjectReference → Nat → Except (ReadError E) (ImmutableArtifactObject E)

/-- `BoundedObjectReadOptions`. -/
structure ReadOptions where
  maxBytes : SizeNumber
  timeoutMs : SizeNumber
  deriving DecidableEq, Repr

/-! ## The stream -/

/-- The chunks taken so far and `total`. -/
structure ReadState where
  chunks : List (List UInt8)
  total : Nat
  deriving DecidableEq, Repr

section
variable {E : Type}

/-- What the loop makes of one `next()`: `none` where it leaves the loop. -/
def ReadState.receive (maxBytes : Nat) (state : ReadState) :
    NextResult E → Except (ReadError E) (Option ReadState)
  | .done => .ok none
  | .rejected error => .error error
  | .notBytes => .error (.store (js "artifact_object_body_invalid")
      (js "Object adapter returned a non-byte stream chunk.") false)
  | .bytes chunk =>
      if chunk.length < 1 ∨ state.total + chunk.length > maxBytes then
        .error (.store (js "artifact_object_size_exceeded")
          (js "Immutable artifact object exceeded the configured byte limit.") false)
      else .ok (some ⟨state.chunks ++ [chunk], state.total + chunk.length⟩)

/-- A round that goes on took one chunk of at least one byte, within the limit. -/
theorem receive_continues {maxBytes : Nat} {state after : ReadState} {result : NextResult E}
    (hreceive : state.receive maxBytes result = .ok (some after)) :
    ∃ chunk, result = .bytes chunk ∧ chunk ≠ [] ∧ state.total + chunk.length ≤ maxBytes ∧
      after = ⟨state.chunks ++ [chunk], state.total + chunk.length⟩ := by
  cases result with
  | done => simp [ReadState.receive] at hreceive
  | rejected error => simp [ReadState.receive] at hreceive
  | notBytes => simp [ReadState.receive] at hreceive
  | bytes chunk =>
      simp only [ReadState.receive] at hreceive
      split at hreceive
      · cases hreceive
      · rename_i hfits
        have hafter := Option.some.inj (Except.ok.inj hreceive)
        refine ⟨chunk, rfl, ?_, by omega, hafter.symm⟩
        intro hempty
        apply hfits
        left
        simp [hempty]

/-- The loop leaves by its `break` at the end of the stream only. -/
theorem receive_breaks {maxBytes : Nat} {state : ReadState} {result : NextResult E}
    (hreceive : state.receive maxBytes result = .ok none) : result = .done := by
  cases result with
  | done => rfl
  | rejected error => simp [ReadState.receive] at hreceive
  | notBytes => simp [ReadState.receive] at hreceive
  | bytes chunk =>
      simp only [ReadState.receive] at hreceive
      split at hreceive <;> simp at hreceive

theorem receive_bytes {maxBytes : Nat} {state : ReadState} {chunk : List UInt8}
    (hchunk : chunk ≠ []) (hfits : state.total + chunk.length ≤ maxBytes) :
    state.receive (E := E) maxBytes (.bytes chunk) =
      .ok (some ⟨state.chunks ++ [chunk], state.total + chunk.length⟩) := by
  have hlength : 0 < chunk.length := List.length_pos_iff.mpr hchunk
  exact if_neg (by omega)

/-- The loop from its round `n` on.  It ends, as each round takes a byte of what
the limit leaves. -/
def readChunks (maxBytes : Nat) (iterator : ByteIterator E) (n : Nat) (state : ReadState) :
    Except (ReadError E) ReadState :=
  match h : state.receive maxBytes (iterator.next n) with
  | .error error => .error error
  | .ok none => .ok state
  | .ok (some after) => readChunks maxBytes iterator (n + 1) after
termination_by maxBytes - state.total
decreasing_by
  obtain ⟨chunk, -, hchunk, hfits, rfl⟩ := receive_continues h
  have hlength : 0 < chunk.length := List.length_pos_iff.mpr hchunk
  simp only
  omega

/-- The bytes of a stream: its loop, then the check of the declared length, then
`Buffer.concat`. -/
def readBody (maxBytes declared : Nat) (iterator : ByteIterator E) :
    Except (ReadError E) (List UInt8) :=
  match readChunks maxBytes iterator 0 ⟨[], 0⟩ with
  | .error error => .error error
  | .ok state =>
      if state.total ≠ declared then
        .error (.store (js "artifact_object_length_mismatch")
          (js "Object adapter content length did not match the streamed bytes.") false)
      else .ok state.chunks.flatten

/-! ## The read -/

/-- `assertArtifactObjectReference` of the requested reference and the check of
the policy; the limit on the bytes. -/
def checkRequest (reference : ArtifactObjectReference) (options : ReadOptions) :
    Except (ReadError E) Nat :=
  if reference.isValid = false then
    .error (.store (js "artifact_object_reference_invalid")
      (js "Immutable artifact object coordinates are invalid.") false)
  else match options.maxBytes.within 1 (1024 * 1024 * 1024),
      options.timeoutMs.within 1000 (10 * 60 * 1000) with
    | some maxBytes, some _ => .ok maxBytes
    | _, _ => .error (.store (js "artifact_object_read_policy_invalid")
        (js "Immutable artifact object read policy is invalid.") false)

/-- What the reader's own failure becomes. -/
def wrapReaderError : ReadError E → ReadError E
  | .foreign error => .caused (js "artifact_object_read_failed")
      (js "Immutable artifact object could not be read.") true (.foreign error)
  | error => error

/-- The checks of an answer of the reader; the declared length and the iterator. -/
def openObject (object : ImmutableArtifactObject E) (expected : ArtifactObjectReference)
    (maxBytes : Nat) : Except (ReadError E) (Nat × ByteIterator E) :=
  if object.reference.isValid = false then
    .error (.caused (js "artifact_object_identity_mismatch")
      (js "Object adapter returned a different immutable generation.") false
      (.store (js "artifact_object_reference_invalid")
        (js "Immutable artifact object coordinates are invalid.") false))
  else if object.reference ≠ expected then
    .error (.store (js "artifact_object_identity_mismatch")
      (js "Object adapter returned a different immutable generation.") false)
  else match object.contentLength.within 1 maxBytes, object.body with
    | none, _ => .error (.store (js "artifact_object_size_invalid")
        (js "Immutable artifact object length is unavailable or exceeds policy.") false)
    | some _, .absent => .error (.store (js "artifact_object_body_invalid")
        (js "Object adapter did not return a byte stream.") false)
    | some _, .broken error => .error error
    | some declared, .stream iterator => .ok (declared, iterator)

/-- What a read comes to, and whether its `finally` called `iterator.return()`. -/
structure BoundedRead (E : Type) where
  result : Except (ReadError E) (List UInt8)
  askedToReturn : Bool

def readBoundedImmutableObject (reader : ArtifactObjectReader E)
    (reference : ArtifactObjectReference) (options : ReadOptions) : BoundedRead E :=
  match checkRequest reference options with
  | .error error => ⟨.error error, false⟩
  | .ok maxBytes =>
      match reader reference maxBytes with
      | .error error => ⟨.error (wrapReaderError error), false⟩
      | .ok object =>
          match openObject object reference maxBytes with
          -- `iterator?.return` of the `finally`: no iterator was made
          | .error error => ⟨.error error, false⟩
          | .ok (declared, iterator) =>
              ⟨readBody maxBytes declared iterator, iterator.hasReturn⟩

/-! ## The loop -/

/-- From call `n` on, the iterator hands out exactly these chunks and is done. -/
def ByteIterator.Yields (iterator : ByteIterator E) : Nat → List (List UInt8) → Prop
  | n, [] => iterator.next n = .done
  | n, chunk :: rest => iterator.next n = .bytes chunk ∧ iterator.Yields (n + 1) rest

/-- A round that leaves the loop leaves it with its state. -/
theorem readChunks_break {maxBytes n : Nat} {iterator : ByteIterator E} {state : ReadState}
    (hreceive : state.receive maxBytes (iterator.next n) = .ok none) :
    readChunks maxBytes iterator n state = .ok state := by
  unfold readChunks
  split
  · rename_i herror
    rw [hreceive] at herror
    cases herror
  · rfl
  · rename_i hafter
    rw [hreceive] at hafter
    cases hafter

/-- A round that goes on leaves the rest of the loop to the next one. -/
theorem readChunks_continue {maxBytes n : Nat} {iterator : ByteIterator E}
    {state after : ReadState}
    (hreceive : state.receive maxBytes (iterator.next n) = .ok (some after)) :
    readChunks maxBytes iterator n state = readChunks maxBytes iterator (n + 1) after := by
  conv_lhs => unfold readChunks
  split
  · rename_i herror
    rw [hreceive] at herror
    cases herror
  · rename_i hbreak
    rw [hreceive] at hbreak
    cases hbreak
  · rename_i other hother
    rw [hreceive] at hother
    cases hother
    rfl

/-- The loop keeps the whole rest of a stream of non-empty chunks within the limit. -/
theorem readChunks_of_yields {maxBytes n : Nat} {iterator : ByteIterator E} {state : ReadState}
    {chunks : List (List UInt8)} (hyields : iterator.Yields n chunks)
    (hchunks : ∀ chunk ∈ chunks, chunk ≠ [])
    (hfits : state.total + chunks.flatten.length ≤ maxBytes) :
    readChunks maxBytes iterator n state =
      .ok ⟨state.chunks ++ chunks, state.total + chunks.flatten.length⟩ := by
  induction chunks generalizing n state with
  | nil =>
      have hdone : iterator.next n = .done := hyields
      rw [readChunks_break (by rw [hdone]; rfl)]
      simp
  | cons chunk rest ih =>
      obtain ⟨hnext, hrest⟩ := hyields
      rw [List.flatten_cons, List.length_append] at hfits
      have hreceive : state.receive maxBytes (iterator.next n) =
          .ok (some ⟨state.chunks ++ [chunk], state.total + chunk.length⟩) := by
        rw [hnext]
        exact receive_bytes (hchunks chunk List.mem_cons_self) (by omega)
      rw [readChunks_continue hreceive, ih hrest
        (fun c hc => hchunks c (List.mem_cons_of_mem _ hc)) (by simp only; omega)]
      simp [Nat.add_assoc]

/-- **What a finished loop has read.** The stream ended, every chunk held bytes,
and the loop kept them all, in order and within the limit. -/
theorem readChunks_ok {maxBytes n : Nat} {iterator : ByteIterator E} {state final : ReadState}
    (hroom : state.total ≤ maxBytes) (hread : readChunks maxBytes iterator n state = .ok final) :
    ∃ chunks, iterator.Yields n chunks ∧ (∀ chunk ∈ chunks, chunk ≠ []) ∧
      state.total + chunks.flatten.length ≤ maxBytes ∧
      final = ⟨state.chunks ++ chunks, state.total + chunks.flatten.length⟩ := by
  fun_induction readChunks maxBytes iterator n state with
  | case1 n state error herror => cases hread
  | case2 n state hbreak =>
      cases hread
      exact ⟨[], receive_breaks hbreak, by simp, by simpa using hroom, by simp⟩
  | case3 n state after hafter ih =>
      obtain ⟨chunk, hnext, hchunk, hfits, rfl⟩ := receive_continues hafter
      obtain ⟨rest, hyields, hrest, hwithin, rfl⟩ := ih hfits hread
      refine ⟨chunk :: rest, ⟨hnext, hyields⟩, ?_, ?_, ?_⟩
      · intro c hc
        rcases List.mem_cons.mp hc with rfl | hc
        · exact hchunk
        · exact hrest c hc
      · rw [List.flatten_cons, List.length_append]
        simp only at hwithin
        omega
      · simp [Nat.add_assoc]

/-- The states of the loop before each of its calls of `next()`. -/
inductive LoopReaches (maxBytes : Nat) (iterator : ByteIterator E) : Nat → ReadState → Prop
  | start : LoopReaches maxBytes iterator 0 ⟨[], 0⟩
  | round {n : Nat} {state after : ReadState} (hreached : LoopReaches maxBytes iterator n state)
      (hreceive : state.receive maxBytes (iterator.next n) = .ok (some after)) :
      LoopReaches maxBytes iterator (n + 1) after

/-- The loop from its start is the loop from any state it reaches. -/
theorem readChunks_of_reached {maxBytes n : Nat} {iterator : ByteIterator E} {state : ReadState}
    (hreached : LoopReaches maxBytes iterator n state) :
    readChunks maxBytes iterator 0 ⟨[], 0⟩ = readChunks maxBytes iterator n state := by
  induction hreached with
  | start => rfl
  | round _ hreceive ih =>
      rw [ih]
      exact readChunks_continue hreceive

/-- **The budget.** Before each call of `next()` the total counts the bytes that
are held, and they are within the limit. -/
theorem reached_within {maxBytes n : Nat} {iterator : ByteIterator E} {state : ReadState}
    (hreached : LoopReaches maxBytes iterator n state) :
    state.chunks.flatten.length = state.total ∧ state.total ≤ maxBytes := by
  induction hreached with
  | start => exact ⟨rfl, Nat.zero_le _⟩
  | round _ hreceive ih =>
      obtain ⟨chunk, -, -, hfits, rfl⟩ := receive_continues hreceive
      refine ⟨?_, hfits⟩
      rw [List.flatten_append, List.length_append, ih.1]
      simp

/-- The bytes of a stream are those of its chunks, where each holds some and
they have the declared length. -/
theorem readBody_ok_iff {maxBytes declared : Nat} (hdeclared : declared ≤ maxBytes)
    (iterator : ByteIterator E) (bytes : List UInt8) :
    readBody maxBytes declared iterator = .ok bytes ↔
      ∃ chunks, iterator.Yields 0 chunks ∧ (∀ chunk ∈ chunks, chunk ≠ []) ∧
        chunks.flatten.length = declared ∧ bytes = chunks.flatten := by
  unfold readBody
  constructor
  · intro hread
    split at hread
    · cases hread
    · rename_i state hloop
      obtain ⟨chunks, hyields, hchunks, -, rfl⟩ := readChunks_ok (Nat.zero_le _) hloop
      split at hread
      · cases hread
      · rename_i htotal
        cases hread
        exact ⟨chunks, hyields, hchunks, by simpa using htotal, by simp⟩
  · rintro ⟨chunks, hyields, hchunks, hlength, rfl⟩
    have hloop : readChunks maxBytes iterator 0 ⟨[], 0⟩ =
        .ok ⟨[] ++ chunks, 0 + chunks.flatten.length⟩ :=
      readChunks_of_yields hyields hchunks (by simp only; omega)
    rw [hloop]
    simp [hlength]

/-! ## The whole read -/

theorem within_eq_some (number : SizeNumber) (lowest : Nat) {highest : Nat} (value : Nat)
    (hsafe : highest ≤ 9007199254740991) :
    number.within lowest highest = some value ↔
      number = .integer value ∧ lowest ≤ value ∧ value ≤ highest := by
  cases number with
  | other => simp [SizeNumber.within]
  | integer n =>
      simp only [SizeNumber.within, SizeNumber.integer.injEq]
      split
      · rename_i hbounds
        simp only [Option.some.injEq]
        omega
      · rename_i hbounds
        simp only [reduceCtorEq, false_iff]
        omega

/-- The read gets to a stream: the request and the policy are valid, and the
reader answers with the requested reference, an admissible length and a body. -/
def Opens (reader : ArtifactObjectReader E) (reference : ArtifactObjectReference)
    (options : ReadOptions) (maxBytes declared : Nat) (iterator : ByteIterator E) : Prop :=
  reference.isValid = true ∧
    (options.maxBytes = .integer maxBytes ∧ 1 ≤ maxBytes ∧ maxBytes ≤ 1024 * 1024 * 1024) ∧
    (∃ timeoutMs : Nat, options.timeoutMs = .integer timeoutMs ∧
      1000 ≤ timeoutMs ∧ timeoutMs ≤ 10 * 60 * 1000) ∧
    ∃ object, reader reference maxBytes = .ok object ∧ object.reference = reference ∧
      (object.contentLength = .integer declared ∧ 1 ≤ declared ∧ declared ≤ maxBytes) ∧
      object.body = .stream iterator

theorem checkRequest_ok {reference : ArtifactObjectReference} {options : ReadOptions}
    {maxBytes : Nat} :
    checkRequest (E := E) reference options = .ok maxBytes ↔
      reference.isValid = true ∧
        (options.maxBytes = .integer maxBytes ∧ 1 ≤ maxBytes ∧ maxBytes ≤ 1024 * 1024 * 1024) ∧
        ∃ timeoutMs : Nat, options.timeoutMs = .integer timeoutMs ∧
          1000 ≤ timeoutMs ∧ timeoutMs ≤ 10 * 60 * 1000 := by
  have hmax : options.maxBytes.within 1 (1024 * 1024 * 1024) = some maxBytes ↔ _ :=
    within_eq_some options.maxBytes 1 maxBytes (by omega)
  have htime : ∀ ms, options.timeoutMs.within 1000 (10 * 60 * 1000) = some ms ↔ _ :=
    fun ms => within_eq_some options.timeoutMs 1000 ms (by omega)
  unfold checkRequest
  rw [← hmax]
  simp only [← htime]
  cases reference.isValid with
  | false => simp
  | true =>
      cases options.maxBytes.within 1 (1024 * 1024 * 1024) with
      | none => simp
      | some limit =>
          cases options.timeoutMs.within 1000 (10 * 60 * 1000) with
          | none => simp
          | some ms => simp

theorem openObject_ok {object : ImmutableArtifactObject E} {expected : ArtifactObjectReference}
    (hexpected : expected.isValid = true) {maxBytes declared : Nat}
    (hlimit : maxBytes ≤ 1024 * 1024 * 1024) {iterator : ByteIterator E} :
    openObject object expected maxBytes = .ok (declared, iterator) ↔
      object.reference = expected ∧
        (object.contentLength = .integer declared ∧ 1 ≤ declared ∧ declared ≤ maxBytes) ∧
        object.body = .stream iterator := by
  have hlength : object.contentLength.within 1 maxBytes = some declared ↔ _ :=
    within_eq_some object.contentLength 1 declared (by omega)
  unfold openObject
  rw [← hlength]
  by_cases hreference : object.reference = expected
  · rw [if_neg (by simp [hreference, hexpected]), if_neg (by simp [hreference])]
    cases object.contentLength.within 1 maxBytes with
    | none => simp
    | some length =>
        cases object.body with
        | absent => simp
        | broken error => simp
        | stream opened => simp [hreference]
  · split
    · simp [hreference]
    · simp [hreference]

/-- A read that gets to its stream reads it, and closes it. -/
theorem read_of_opens {reader : ArtifactObjectReader E} {reference : ArtifactObjectReference}
    {options : ReadOptions} {maxBytes declared : Nat} {iterator : ByteIterator E}
    (hopens : Opens reader reference options maxBytes declared iterator) :
    readBoundedImmutableObject reader reference options =
      ⟨readBody maxBytes declared iterator, iterator.hasReturn⟩ := by
  obtain ⟨hvalid, hmax, htime, object, hreader, hreference, hlength, hbody⟩ := hopens
  have hrequest := checkRequest_ok (E := E).mpr ⟨hvalid, hmax, htime⟩
  have hopen : openObject object reference maxBytes = .ok (declared, iterator) :=
    (openObject_ok hvalid hmax.2.2).mpr ⟨hreference, hlength, hbody⟩
  unfold readBoundedImmutableObject
  rw [hrequest]
  simp only
  rw [hreader]
  simp only
  rw [hopen]

/-- A read that returns bytes or closes an iterator got to its stream. -/
theorem opens_of_read {reader : ArtifactObjectReader E} {reference : ArtifactObjectReference}
    {options : ReadOptions}
    (hread : (∃ bytes, (readBoundedImmutableObject reader reference options).result = .ok bytes) ∨
      (readBoundedImmutableObject reader reference options).askedToReturn = true) :
    ∃ maxBytes declared iterator, Opens reader reference options maxBytes declared iterator := by
  unfold readBoundedImmutableObject at hread
  cases hrequest : checkRequest (E := E) reference options with
  | error error => simp [hrequest] at hread
  | ok maxBytes =>
      obtain ⟨hvalid, hmax, htime⟩ := checkRequest_ok.mp hrequest
      simp only [hrequest] at hread
      cases hreader : reader reference maxBytes with
      | error error => simp [hreader] at hread
      | ok object =>
          simp only [hreader] at hread
          cases hopen : openObject object reference maxBytes with
          | error error => simp [hopen] at hread
          | ok opened =>
              obtain ⟨hreference, hlength, hbody⟩ := (openObject_ok hvalid hmax.2.2).mp hopen
              exact ⟨maxBytes, opened.1, opened.2, hvalid, hmax, htime, object, hreader,
                hreference, hlength, hbody⟩

/-- **The bounded immutable read.** A read returns bytes exactly when the request
and its policy are valid, the reference read is the one requested, the declared
length is within the limit and the stream is non-empty chunks of that total
length; the bytes are their concatenation.  It asks an iterator to return
exactly when it had got one.  Before each `next()` it holds no more bytes than
the limit. -/
theorem readBoundedImmutableObject_exact (reader : ArtifactObjectReader E)
    (reference : ArtifactObjectReference) (options : ReadOptions) :
    (∀ bytes, (readBoundedImmutableObject reader reference options).result = .ok bytes ↔
      ∃ maxBytes declared iterator chunks,
        Opens reader reference options maxBytes declared iterator ∧ iterator.Yields 0 chunks ∧
        (∀ chunk ∈ chunks, chunk ≠ []) ∧ chunks.flatten.length = declared ∧
        bytes = chunks.flatten) ∧
    ((readBoundedImmutableObject reader reference options).askedToReturn = true ↔
      ∃ maxBytes declared iterator,
        Opens reader reference options maxBytes declared iterator ∧ iterator.hasReturn = true) ∧
    ∀ maxBytes declared iterator n state,
      Opens reader reference options maxBytes declared iterator →
        LoopReaches maxBytes iterator n state →
          readChunks maxBytes iterator 0 ⟨[], 0⟩ = readChunks maxBytes iterator n state ∧
          state.chunks.flatten.length = state.total ∧ state.total ≤ maxBytes := by
  refine ⟨fun bytes => ⟨?_, ?_⟩, ⟨?_, ?_⟩, ?_⟩
  · intro hread
    obtain ⟨maxBytes, declared, iterator, hopens⟩ := opens_of_read (Or.inl ⟨bytes, hread⟩)
    have hdeclared : declared ≤ maxBytes := by
      obtain ⟨-, -, -, object, -, -, hlength, -⟩ := hopens
      exact hlength.2.2
    rw [read_of_opens hopens] at hread
    obtain ⟨chunks, hchunks⟩ := (readBody_ok_iff hdeclared iterator bytes).mp hread
    exact ⟨maxBytes, declared, iterator, chunks, hopens, hchunks⟩
  · rintro ⟨maxBytes, declared, iterator, chunks, hopens, hchunks⟩
    have hdeclared : declared ≤ maxBytes := by
      obtain ⟨-, -, -, object, -, -, hlength, -⟩ := hopens
      exact hlength.2.2
    rw [read_of_opens hopens]
    exact (readBody_ok_iff hdeclared iterator bytes).mpr ⟨chunks, hchunks⟩
  · intro hasked
    obtain ⟨maxBytes, declared, iterator, hopens⟩ := opens_of_read (Or.inr hasked)
    rw [read_of_opens hopens] at hasked
    exact ⟨maxBytes, declared, iterator, hopens, hasked⟩
  · rintro ⟨maxBytes, declared, iterator, hopens, hreturn⟩
    rw [read_of_opens hopens]
    exact hreturn
  · intro maxBytes declared iterator n state _ hreached
    exact ⟨readChunks_of_reached hreached, reached_within hreached⟩

end

/-! ## Reads that never get to a stream -/

/-- A stream of one byte that offers `return`. -/
def oneByte : ByteIterator Unit where
  next n := if n = 0 then .bytes [0x41] else .done
  hasReturn := true

/-- A store that answers every request with the same one-byte object. -/
def oneByteReader (reference : ArtifactObjectReference) : ArtifactObjectReader Unit :=
  fun _ _ => .ok ⟨reference, .integer 1, .stream oneByte⟩

/-- The sample object under a key that is a URL. -/
def urlObject : ArtifactObjectReference := { sampleObject with objectKey := js "s3://manual.pdf" }

/-- A stream of another generation is never asked to return; a limit of two
gibibytes and a reference whose key is a URL are refused although the stream is
the requested one and within the limit. -/
theorem read_refused :
    ((readBoundedImmutableObject (oneByteReader { sampleObject with objectVersion := js "2" })
        sampleObject ⟨.integer 10, .integer 1000⟩).result.isOk = false ∧
      (readBoundedImmutableObject (oneByteReader { sampleObject with objectVersion := js "2" })
        sampleObject ⟨.integer 10, .integer 1000⟩).askedToReturn = false) ∧
    (readBoundedImmutableObject (oneByteReader sampleObject) sampleObject
      ⟨.integer (2 * 1024 * 1024 * 1024), .integer 1000⟩).result.isOk = false ∧
    (readBoundedImmutableObject (oneByteReader urlObject) urlObject
      ⟨.integer 10, .integer 1000⟩).result.isOk = false := by
  decide +kernel

end Ingestion
