import MuniRag.SearchEvidence.Idempotency

/-!
# Whose claim a request ends

A claim that has run out is claimed again by the next request of the key.  When
that is a retry of the same canonical request, the new record looks to the first
request like its own: it is processing and has the same digest.  A run keeps
claims apart exactly when no request completes or releases at such a moment.
-/

namespace SearchEvidence

open Runs

variable (service : Service) {ι : Type} [DecidableEq ι] (requests : ι → BundleRequest)

/-! ## The law and the condition -/

/-- A completion or a release changes the records only if the claim of the key
is the request's own, and no execution starts while the last claim of the key is
that of a live request and has not run out. -/
def World.Owned (world : World ι) : Event ι → Prop
  | .claim i =>
      (world.step service requests (.claim i)).stages i = .preparing →
      world.stages i = .start →
        ∀ j, world.claimant ((requests i).scope service).replayKey = some j →
          (world.stages j).live = true →
            ¬ (requests i).now < ((requests j).scope service).expiresAt
  | .prepare i failure => (world.step service requests (.prepare i failure)).records = world.records
  | .execute i result =>
      (world.step service requests (.execute i result)).records ≠ world.records →
        world.claimant ((requests i).scope service).replayKey = some i
  | .release i lost =>
      (world.step service requests (.release i lost)).records ≠ world.records →
        world.claimant ((requests i).scope service).replayKey = some i

/-- The key of the request is held by an unfinished claim of the same canonical
request which is not its own. -/
def World.Overtaken (world : World ι) (i : ι) : Prop :=
  ∃ record, JsMap.get world.records ((requests i).scope service).replayKey = some record ∧
    isClaimOf ((requests i).scope service) record = true ∧
    world.claimant ((requests i).scope service).replayKey ≠ some i

/-- The request is about to complete or to release, and is overtaken. -/
def World.Trespasses (world : World ι) : Event ι → Prop
  | .execute i (.ok _) => world.stages i = .executing ∧ world.Overtaken service requests i
  | .release i false => (∃ failure, world.stages i = .releasing failure) ∧
      world.Overtaken service requests i
  | _ => False

/-- **Invariant of the runs.**  The last claim of a key is that of a request
with this key, and while this request is live its record is the stored one. -/
structure World.Apart (world : World ι) : Prop where
  named : ∀ key i, world.claimant key = some i → ((requests i).scope service).replayKey = key
  stored : ∀ i, (world.stages i).live = true →
    world.claimant ((requests i).scope service).replayKey = some i →
      JsMap.get world.records ((requests i).scope service).replayKey =
        some ((requests i).scope service).claimed

variable {service requests} {world : World ι} {i : ι}

theorem isClaimOf_iff {input : Scope} {record : IdempotencyRecord} :
    isClaimOf input record = true ↔
      record.state = .processing ∧ record.scope.requestSha256 = input.requestSha256 := by
  simp [isClaimOf]

/-! ## What the calls find -/

/-- A claim is new when nothing is stored or what is stored has run out. -/
theorem claim_new {records next : Records} {input : Scope}
    (h : claimIdempotency records input = (next, .new)) :
    next = JsMap.set records input.replayKey input.claimed ∧
      ∀ record, JsMap.get records input.replayKey = some record →
        record.scope.expiresAt ≤ input.now := by
  rw [claimIdempotency] at h
  split at h
  next hnone =>
    refine ⟨(congrArg Prod.fst h).symm, fun record hrecord => ?_⟩
    rw [hnone] at hrecord
    cases hrecord
  next existing hsome =>
    split at h
    next hexpired =>
      refine ⟨(congrArg Prod.fst h).symm, fun record hrecord => ?_⟩
      rw [hsome] at hrecord
      obtain rfl : existing = record := Option.some.inj hrecord
      exact hexpired
    · split at h
      · cases congrArg Prod.snd h
      · split at h <;> cases congrArg Prod.snd h

/-- Only a completed record is replayed. -/
theorem claim_replay {records next : Records} {input : Scope}
    {body sha audit : Option JsString}
    (h : claimIdempotency records input = (next, .replay body sha audit)) :
    ∃ record, JsMap.get records input.replayKey = some record ∧ record.state = .completed := by
  rw [claimIdempotency] at h
  split at h
  · cases congrArg Prod.snd h
  next existing hsome =>
    split at h
    · cases congrArg Prod.snd h
    · split at h
      · cases congrArg Prod.snd h
      · split at h
        · cases congrArg Prod.snd h
        next hstate =>
          refine ⟨existing, hsome, ?_⟩
          cases hcase : existing.state with
          | processing => exact absurd hcase hstate
          | completed => rfl

theorem complete_some {sha256 : JsString → JsString} {records next : Records} {input : Scope}
    {completion : Completion}
    (h : completeIdempotency sha256 records input completion = some next) :
    ∃ record final, JsMap.get records input.replayKey = some record ∧
      isClaimOf input record = true ∧ final.state = .completed ∧
      next = JsMap.set records input.replayKey final := by
  rw [completeIdempotency] at h
  split at h
  · cases h
  next existing hfound =>
    obtain ⟨hget, hclaim⟩ := Option.filter_eq_some_iff.mp hfound
    exact ⟨existing, _, hget, hclaim, rfl, (Option.some.inj h).symm⟩

theorem complete_of_claim {sha256 : JsString → JsString} {records : Records} {input : Scope}
    {completion : Completion} {record : IdempotencyRecord}
    (hget : JsMap.get records input.replayKey = some record)
    (hclaim : isClaimOf input record = true) :
    ∃ next, completeIdempotency sha256 records input completion = some next := by
  rw [completeIdempotency, hget]
  simp [Option.filter, hclaim]

/-- A release deletes the record it looks for and changes nothing otherwise. -/
theorem release_cases (records : Records) (input : Scope) :
    (∃ record, JsMap.get records input.replayKey = some record ∧ isClaimOf input record = true ∧
        releaseIdempotency records input = JsMap.delete records input.replayKey) ∨
      releaseIdempotency records input = records := by
  rw [releaseIdempotency]
  cases hget : JsMap.get records input.replayKey with
  | none => exact .inr rfl
  | some record =>
      by_cases hclaim : isClaimOf input record = true
      · exact .inl ⟨record, rfl, hclaim, by simp [hclaim]⟩
      · right
        simp [hclaim]

/-! ## Steps -/

omit [DecidableEq ι] in
theorem apart_opening (records : Records) :
    (World.opening ι records).Apart service requests where
  named _ _ h := nomatch h
  stored _ h := nomatch h

/-- **Frame.**  A request moves on, and the records of live requests stay. -/
theorem apart_moveTo {records : Records} {stage : Stage} (h : world.Apart service requests)
    (hlive : stage.live = true → (world.stages i).live = true)
    (hkept : ∀ j, (if j = i then stage.live else (world.stages j).live) = true →
      world.claimant ((requests j).scope service).replayKey = some j →
        JsMap.get records ((requests j).scope service).replayKey =
          JsMap.get world.records ((requests j).scope service).replayKey) :
    ({ world with records }.moveTo i stage).Apart service requests where
  named := h.named
  stored := by
    intro j hj hclaimant
    have hstage : ({ world with records }.moveTo i stage).stages j =
        if j = i then stage else world.stages j := by
      by_cases hji : j = i <;> simp [World.moveTo, hji]
    have hnow : (if j = i then stage.live else (world.stages j).live) = true := by
      rw [hstage] at hj
      split at hj <;> simp_all
    have hbefore : (world.stages j).live = true := by
      by_cases hji : j = i
      · subst hji
        exact hlive (by simpa using hnow)
      · simpa [hji] using hnow
    exact (hkept j hnow hclaimant).trans (h.stored j hbefore hclaimant)

omit [DecidableEq ι] in
/-- A live request whose claim is the last of its key holds the record that
another request finds there. -/
theorem stored_claim {j : ι} {record : IdempotencyRecord} {key : JsString}
    (h : world.Apart service requests) (hlive : (world.stages j).live = true)
    (hclaimant : world.claimant key = some j) (hget : JsMap.get world.records key = some record) :
    record = ((requests j).scope service).claimed := by
  have hkey := h.named key j hclaimant
  subst hkey
  exact Option.some.inj (hget.symm.trans (h.stored j hlive hclaimant))

omit [DecidableEq ι] in
/-- The write of a request under its key leaves the records of the other live
requests, unless one of them holds the key. -/
theorem kept_of_write {records : Records} {j : ι}
    (hwrite : ∀ key, key ≠ ((requests i).scope service).replayKey →
      JsMap.get records key = JsMap.get world.records key)
    (hmine : world.claimant ((requests i).scope service).replayKey = some j → False)
    (hclaimant : world.claimant ((requests j).scope service).replayKey = some j) :
    JsMap.get records ((requests j).scope service).replayKey =
      JsMap.get world.records ((requests j).scope service).replayKey := by
  refine hwrite _ fun hsame => ?_
  rw [hsame] at hclaimant
  exact hmine hclaimant

theorem apart_claim (h : world.Apart service requests) :
    (world.claim service (requests i) i).Apart service requests := by
  rw [World.claim]
  split
  next records hclaim =>
    obtain ⟨rfl, hexpired⟩ := claim_new hclaim
    constructor
    · intro key j hj
      by_cases hkey : key = ((requests i).scope service).replayKey
      · subst hkey
        simp only [Function.update_self, Option.some.injEq] at hj
        rw [hj]
      · simp only [Function.update_of_ne hkey] at hj
        exact h.named key j hj
    · intro j hlive hclaimant
      by_cases hkey : ((requests j).scope service).replayKey =
          ((requests i).scope service).replayKey
      · simp only [hkey, Function.update_self, Option.some.injEq] at hclaimant
        subst hclaimant
        rw [JsMap.get_set, if_pos rfl]
      · simp only [Function.update_of_ne hkey] at hclaimant
        have hji : j ≠ i := fun hsame => hkey (by rw [hsame])
        simp only [Function.update_of_ne hji] at hlive
        rw [JsMap.get_set, if_neg hkey]
        exact h.stored j hlive hclaimant
  · exact apart_moveTo h nofun fun _ _ _ => rfl
  · exact apart_moveTo h nofun fun _ _ _ => rfl
  next records body sha audit hclaim =>
    obtain ⟨record, hget, hstate⟩ := claim_replay hclaim
    split
    · exact apart_moveTo h nofun fun _ _ _ => rfl
    · refine apart_moveTo h nofun fun j hlive hclaimant => ?_
      have hji : j ≠ i := by
        intro hsame
        simp [hsame, Stage.live] at hlive
      refine kept_of_write (i := i) (fun key hkey => ?_) (fun hheld => ?_) hclaimant
      · rw [invalidateCompletedIdempotency, JsMap.get_delete, if_neg hkey]
      · have hrecord := stored_claim h (by simpa [hji] using hlive) hheld hget
        rw [hrecord] at hstate
        cases hstate

/-- **Step lemma.** -/
theorem apart_step (h : world.Apart service requests) (event : Event ι)
    (hgood : ¬ world.Trespasses service requests event) :
    (world.step service requests event).Apart service requests := by
  cases event with
  | claim i =>
      rw [World.step]
      split
      · exact apart_claim h
      · exact h
  | prepare i failure =>
      simp only [World.step]
      split
      next hstage => exact apart_moveTo h (fun _ => by rw [hstage]; rfl) fun _ _ _ => rfl
      next hstage => exact apart_moveTo h (fun _ => by rw [hstage]; rfl) fun _ _ _ => rfl
      · exact h
  | execute i result =>
      rw [World.step]
      split
      swap
      · exact h
      next hstage =>
        cases result with
        | error failure => exact apart_moveTo h (fun _ => by rw [hstage]; rfl) fun _ _ _ => rfl
        | ok completion =>
            rw [World.execute]
            split
            · exact apart_moveTo h (fun _ => by rw [hstage]; rfl) fun _ _ _ => rfl
            next records hcomplete =>
              obtain ⟨record, final, hget, hclaim, _, rfl⟩ := complete_some hcomplete
              refine apart_moveTo h nofun fun j hlive hclaimant => ?_
              have hji : j ≠ i := by
                intro hsame
                simp [hsame, Stage.live] at hlive
              refine kept_of_write (i := i) (fun key hkey => ?_) (fun hheld => ?_) hclaimant
              · rw [JsMap.get_set, if_neg hkey]
              · refine hgood ⟨hstage, record, hget, hclaim, fun hmine => hji ?_⟩
                exact Option.some.inj (hheld.symm.trans hmine)
  | release i lost =>
      rw [World.step]
      split
      swap
      · exact h
      next failure hstage =>
        rw [World.release]
        split
        · exact apart_moveTo h nofun fun _ _ _ => rfl
        next hlost =>
          refine apart_moveTo h nofun fun j hlive hclaimant => ?_
          have hji : j ≠ i := by
            intro hsame
            simp [hsame, Stage.live] at hlive
          rcases release_cases world.records ((requests i).scope service) with
            ⟨record, hget, hclaim, hrelease⟩ | hrelease <;> rw [hrelease]
          refine kept_of_write (i := i) (fun key hkey => ?_) (fun hheld => ?_) hclaimant
          · rw [JsMap.get_delete, if_neg hkey]
          · obtain rfl : lost = false := by simpa using hlost
            refine hgood ⟨⟨failure, hstage⟩, record, hget, hclaim, fun hmine => hji ?_⟩
            exact Option.some.inj (hheld.symm.trans hmine)

/-! ## The law -/

/-- **A step is lawful exactly when its request does not trespass.** -/
theorem owned_iff (h : world.Apart service requests) (event : Event ι) :
    world.Owned service requests event ↔ ¬ world.Trespasses service requests event := by
  cases event with
  | claim i =>
      refine iff_of_true (fun hnew hstart j hclaimant hlive hunexpired => ?_) id
      have hkey := h.named _ j hclaimant
      have hget := h.stored j hlive (hkey ▸ hclaimant)
      rw [hkey] at hget
      rw [World.step, hstart] at hnew
      simp only [World.claim] at hnew
      split at hnew
      next records hclaim =>
        have hexpired := (claim_new hclaim).2 _ hget
        exact absurd hunexpired (not_lt.mpr hexpired)
      · simp [World.moveTo] at hnew
      · simp [World.moveTo] at hnew
      · split at hnew <;> simp [World.moveTo] at hnew
  | prepare i failure =>
      refine iff_of_true ?_ id
      simp only [World.Owned, World.step]
      split <;> rfl
  | execute i result =>
      constructor
      · rintro howned htrespass
        cases result with
        | error failure => exact htrespass
        | ok completion =>
            obtain ⟨hstage, record, hget, hclaim, hother⟩ := htrespass
            obtain ⟨next, hcomplete⟩ : ∃ next, completeIdempotency service.sha256 world.records
              ((requests i).scope service) completion = some next := complete_of_claim hget hclaim
            refine hother (howned ?_)
            obtain ⟨_, final, _, _, hfinal, hnext⟩ := complete_some hcomplete
            simp only [World.step, hstage, World.execute, hcomplete]
            intro hsame
            change next = world.records at hsame
            rw [← hsame, hnext, JsMap.get_set, if_pos rfl] at hget
            obtain rfl := Option.some.inj hget
            cases hfinal.symm.trans (isClaimOf_iff.mp hclaim).1
      · intro hgood hchange
        simp only [World.step] at hchange
        split at hchange
        swap
        · exact absurd rfl hchange
        next hstage =>
          cases result with
          | error failure => exact absurd rfl hchange
          | ok completion =>
              simp only [World.execute] at hchange
              split at hchange
              · exact absurd rfl hchange
              next records hcomplete =>
                obtain ⟨record, _, hget, hclaim, _⟩ := complete_some hcomplete
                by_contra hother
                exact hgood ⟨hstage, record, hget, hclaim, hother⟩
  | release i lost =>
      constructor
      · rintro howned htrespass
        cases lost with
        | true => exact htrespass
        | false =>
            obtain ⟨⟨failure, hstage⟩, record, hget, hclaim, hother⟩ := htrespass
            refine hother (howned ?_)
            have hrelease : releaseIdempotency world.records ((requests i).scope service) =
                JsMap.delete world.records ((requests i).scope service).replayKey := by
              simp [releaseIdempotency, hget, hclaim]
            simp only [World.step, hstage, World.release, hrelease]
            intro hsame
            change JsMap.delete world.records _ = world.records at hsame
            rw [← hsame, JsMap.get_delete, if_pos rfl] at hget
            cases hget
      · intro hgood hchange
        simp only [World.step] at hchange
        split at hchange
        swap
        · exact absurd rfl hchange
        next failure hstage =>
          simp only [World.release] at hchange
          split at hchange
          · exact absurd rfl hchange
          next hlost =>
            obtain rfl : lost = false := by simpa using hlost
            rcases release_cases world.records ((requests i).scope service) with
              ⟨record, hget, hclaim, _⟩ | hrelease
            · by_contra hother
              exact hgood ⟨⟨failure, hstage⟩, record, hget, hclaim, hother⟩
            · exact absurd hrelease hchange

/-- **Claims are owned, exactly** as long as no request completes or releases
while its key is held by an unfinished claim of another request with the same
digest. -/
theorem claims_owned_iff (service : Service) (requests : ι → BundleRequest) (records : Records)
    (events : List (Event ι)) :
    EachStep (World.step service requests) (World.Owned service requests)
        (.opening ι records) events ↔
      EachStep (World.step service requests)
        (fun world event => ¬ world.Trespasses service requests event)
        (.opening ι records) events := by
  have hkeep : ∀ (world : World ι) event, world.Apart service requests →
      ¬ world.Trespasses service requests event →
      (world.step service requests event).Apart service requests :=
    fun _ event h hgood => apart_step h event hgood
  exact eachStep_iff_eachStep hkeep (fun _ event h => owned_iff h event)
    (apart_opening records) events

/-! ## Claims in time -/

/-- No request begins after the claim of another under its key has run out. -/
def Timely (service : Service) (requests : ι → BundleRequest) : Prop :=
  ∀ i j, ((requests i).scope service).replayKey = ((requests j).scope service).replayKey →
    (requests j).now < ((requests i).scope service).expiresAt

/-- Every live request is the last that has claimed its key. -/
def World.Held (service : Service) (requests : ι → BundleRequest) (world : World ι) : Prop :=
  ∀ i, (world.stages i).live = true →
    world.claimant ((requests i).scope service).replayKey = some i

omit [DecidableEq ι] in
theorem not_trespasses_of_held (h : world.Held service requests) (event : Event ι) :
    ¬ world.Trespasses service requests event := by
  intro htrespass
  cases event with
  | claim | prepare => exact htrespass
  | execute i result =>
      cases result with
      | error => exact htrespass
      | ok completion =>
          obtain ⟨hstage, _, _, _, hother⟩ := htrespass
          exact hother (h i (by rw [hstage]; rfl))
  | release i lost =>
      cases lost with
      | true => exact htrespass
      | false =>
          obtain ⟨⟨_, hstage⟩, _, _, _, hother⟩ := htrespass
          exact hother (h i (by rw [hstage]; rfl))

theorem held_moveTo {records : Records} {stage : Stage} (h : world.Held service requests)
    (hlive : stage.live = true → (world.stages i).live = true) :
    ({ world with records }.moveTo i stage).Held service requests := by
  intro j hj
  by_cases hji : j = i
  · subst hji
    simp only [World.moveTo, Function.update_self] at hj
    exact h j (hlive hj)
  · simp only [World.moveTo, Function.update_of_ne hji] at hj
    exact h j hj

theorem held_step (htimely : Timely service requests) (hapart : world.Apart service requests)
    (h : world.Held service requests) (event : Event ι) :
    (world.step service requests event).Held service requests := by
  cases event with
  | claim i =>
      simp only [World.step]
      split
      swap
      · exact h
      simp only [World.claim]
      split
      next records hclaim =>
        intro j hj
        by_cases hji : j = i
        · subst hji
          exact Function.update_self ..
        simp only [Function.update_of_ne hji] at hj
        have hclaimant := h j hj
        by_cases hkey : ((requests j).scope service).replayKey =
            ((requests i).scope service).replayKey
        · -- The claim of `j` has not run out, so that of `i` cannot be new.
          have hget := hapart.stored j hj hclaimant
          rw [hkey] at hget
          have hexpired := (claim_new hclaim).2 _ hget
          exact absurd (htimely j i hkey) (not_lt.mpr hexpired)
        · exact (Function.update_of_ne hkey ..).trans hclaimant
      · exact held_moveTo h nofun
      · exact held_moveTo h nofun
      · split <;> exact held_moveTo h nofun
  | prepare i failure =>
      simp only [World.step]
      split
      next hstage => exact held_moveTo h fun _ => by rw [hstage]; rfl
      next hstage => exact held_moveTo h fun _ => by rw [hstage]; rfl
      · exact h
  | execute i result =>
      simp only [World.step]
      split
      swap
      · exact h
      next hstage =>
        have hlive : (world.stages i).live = true := by rw [hstage]; rfl
        cases result with
        | error failure => exact held_moveTo h fun _ => hlive
        | ok completion =>
            simp only [World.execute]
            split <;> exact held_moveTo h fun _ => hlive
  | release i lost =>
      simp only [World.step]
      split
      swap
      · exact h
      next failure hstage =>
        simp only [World.release]
        split <;> exact held_moveTo h nofun

/-- **Claims in time are owned.** -/
theorem claims_owned_in_time (htimely : Timely service requests) (records : Records)
    (events : List (Event ι)) :
    EachStep (World.step service requests) (World.Owned service requests)
      (.opening ι records) events := by
  have hopening : (World.opening ι records).Apart service requests ∧
      (World.opening ι records).Held service requests := ⟨apart_opening records, nofun⟩
  generalize World.opening ι records = start at hopening
  induction events generalizing start with
  | nil => trivial
  | cons event events ih =>
      obtain ⟨hapart, hheld⟩ := hopening
      have hgood := not_trespasses_of_held hheld event
      exact ⟨(owned_iff hapart event).mpr hgood,
        ih _ ⟨apart_step hapart event hgood, held_step htimely hapart hheld event⟩⟩

/-! ## A retry takes over -/

def sampleService : Service where
  sha256 := id
  idempotencyTtlSeconds := 60
  validStored _ _ _ _ := true

/-- Three requests for one bundle: the second begins when the claim of the first
has run out, the third a second later. -/
def sampleRequests (i : Fin 3) : BundleRequest where
  tenantId := js "t"
  principalId := js "p"
  idempotencyKey := js "k"
  canonicalJson := js "q"
  now := if i = 0 then 0 else if i = 1 then 60000 else 61000

/-- The provider fails the first request after the second has claimed the key. -/
def sampleTakeover : List (Event (Fin 3)) :=
  [.claim 0, .claim 1, .prepare 0 (some (.other "timeout")), .release 0 false]

def sampleTaken : World (Fin 3) :=
  run (World.step sampleService sampleRequests) (.opening (Fin 3) []) sampleTakeover

/-- A release that changes the records under the claim of another request. -/
theorem not_owned_of_release {requests : ι → BundleRequest} {lost : Bool}
    (hchange : (world.step service requests (.release i lost)).records ≠ world.records)
    (hother : world.claimant ((requests i).scope service).replayKey ≠ some i) :
    ¬ world.Owned service requests (.release i lost) :=
  fun howned => hother (howned hchange)

/-- The release of the first request deletes the claim of the second, and the
third begins a second execution while the second is live. -/
theorem release_deletes_other_claim :
    ¬ EachStep (World.step sampleService sampleRequests) (World.Owned sampleService sampleRequests)
        (.opening (Fin 3) []) sampleTakeover ∧
      sampleTaken.stages 1 = .preparing ∧ sampleTaken.records = [] ∧
      (sampleTaken.step sampleService sampleRequests (.claim 2)).stages 2 = .preparing := by
  refine ⟨fun hlaw => ?_, by decide +kernel, by decide +kernel, by decide +kernel⟩
  exact not_owned_of_release (by decide +kernel) (by decide +kernel) hlaw.2.2.2.1

end SearchEvidence
