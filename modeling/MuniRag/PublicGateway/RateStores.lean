import MuniRag.PublicGateway.RateGate

/-!
# The two stores of the rate gate

The store in memory counts under a text of four parts, and never forgets.  The table forgets
counters that are a day old and stops counting at a million, which no limit reaches; it counts
as long as the clock does not run back by most of a day and audit identifiers are new.
-/

namespace PublicGateway

open FixedWindow

section Stores

variable {digests : Digests} {gateway : Gateway} {history : List RateInput}
  {input other : RateInput} {run : List GateRequest}

/-! ## In memory -/

/-- What the inputs of a gateway share. -/
theorem Ours.fields (h : Ours digests gateway input) : input.tenantId = gateway.tenantId ∧
    input.windowSeconds = gateway.rateWindowSeconds ∧ input.clientKeySha256.length = 64 ∧
      input.limit = match input.operation with
        | .publicQueryGlobalV1 => gateway.globalRateLimit
        | .publicQueryClientV1 => gateway.rateLimit := by
  obtain ⟨request, hinput⟩ := h
  rcases List.mem_cons.mp hinput with rfl | hinput
  · exact ⟨rfl, rfl, digests.length_sha256Hex _, rfl⟩
  · obtain rfl := List.mem_singleton.mp hinput
    exact ⟨rfl, rfl, digests.length_hmacHex _ _, rfl⟩

theorem RateOperation.text_injective {a b : RateOperation} (h : a.text = b.text) : a = b := by
  revert h
  cases a <;> cases b <;> decide

theorem RateOperation.length_text (a : RateOperation) : a.text.length = 22 := by
  cases a <;> decide

/-- The texts of two counters differ. -/
theorem rateKey_eq_iff (hinput : Ours digests gateway input) (hother : Ours digests gateway other) :
    rateKey other = rateKey input ↔ other.SameCounter input := by
  obtain ⟨htenant, -, hlength, -⟩ := hinput.fields
  obtain ⟨htenant', -, hlength', -⟩ := hother.fields
  unfold rateKey RateInput.SameCounter
  simp only [htenant, htenant', List.append_assoc, List.append_right_inj]
  constructor
  · intro h
    obtain ⟨hkey, hrest⟩ := List.append_inj h (hlength'.trans hlength.symm)
    rw [List.append_right_inj] at hrest
    obtain ⟨hoperation, hrest⟩ := List.append_inj hrest
      ((RateOperation.length_text _).trans (RateOperation.length_text _).symm)
    rw [List.append_right_inj] at hrest
    exact ⟨RateOperation.text_injective hoperation, hkey, Api.numberText_injective hrest⟩
  · rintro ⟨hoperation, hkey, hbucket⟩
    rw [hoperation, hkey, hbucket]

/-- The map has the count of every counter. -/
def MemoryState.Holds (digests : Digests) (gateway : Gateway) (history : List RateInput)
    (state : MemoryState) : Prop :=
  ∀ input, Ours digests gateway input →
    ((JsMap.get state.rateLimits (rateKey input)).getD ⟨0, none⟩).count = countOf history input

theorem countOf_concat : countOf (history ++ [input]) other =
    countOf history other + if input.SameCounter other then 1 else 0 := by
  rw [countOf_append]
  by_cases hsame : input.SameCounter other <;> simp [countOf, hsame]

theorem inMemory_counts (clock : Time) : Counts digests gateway (inMemory clock)
    MemoryState.audits (fun _ _ => True) (MemoryState.Holds digests gateway) where
  consume := by
    intro history input state hholds hours _ decision next hconsume
    have hcount := hholds input hours
    obtain ⟨rfl, rfl⟩ := Prod.mk.inj hconsume
    dsimp only
    rw [hcount]
    refine ⟨fun other hother => ?_, rfl, ?_, fun hspent => ?_⟩
    · rw [JsMap.get_set, countOf_concat]
      by_cases hkey : rateKey other = rateKey input
      · obtain ⟨hoperation, hclient, hbucket⟩ := (rateKey_eq_iff hours hother).mp hkey
        have hsame : input.SameCounter other := ⟨hoperation.symm, hclient.symm, hbucket.symm⟩
        rw [if_pos hkey, if_pos hsame, ← hholds other hother, hkey, hcount]
        rfl
      · have hdiffer : ¬ input.SameCounter other := fun ⟨hoperation, hclient, hbucket⟩ =>
          hkey ((rateKey_eq_iff hours hother).mpr ⟨hoperation.symm, hclient.symm, hbucket.symm⟩)
        rw [if_neg hkey, if_neg hdiffer, hholds other hother, Nat.add_zero]
    · by_cases hroom : countOf history input + 1 ≤ input.limit
      · simp [hroom, Nat.lt_of_succ_le hroom]
      · simp [hroom, not_lt.mpr (Nat.le_of_lt_succ (not_le.mp hroom))]
    · have hfull : ¬ countOf history input + 1 ≤ input.limit := by omega
      rw [if_neg hfull]
      by_cases hfirst : countOf history input = input.limit <;> simp [hfirst]
  record := fun hholds => ⟨hholds, rfl⟩

/-! ## The table -/

/-- The clock has not run back by 23 hours since any earlier request, and the audit identifier is
new. -/
def Timely (history : List RateInput) (input : RateInput) : Prop :=
  ∀ earlier ∈ history, earlier.now ≤ input.now + 82800000 ∧
    earlier.blockedAuditId ≠ input.blockedAuditId

/-- The rows have the counts of the counters that are not a day old. -/
structure TableState.Holds (digests : Digests) (gateway : Gateway) (history : List RateInput)
    (state : TableState) : Prop where
  ours : ∀ input ∈ history, Ours digests gateway input
  counted : ∀ row ∈ state.rows, ∀ input, Ours digests gateway input → row.IsOf input →
    row.requestCount = min (countOf history input) 1000000
  named : ∀ row ∈ state.rows, ∀ auditId, row.blockedAuditId = some auditId →
    ∃ input ∈ history, input.blockedAuditId = auditId
  present : ∀ input ∈ history, (∃ row ∈ state.rows, row.IsOf input) ∨ ∃ later ∈ history,
    bucketOf input.windowSeconds input.now * input.windowSeconds * 1000 < later.now - 86400000

/-- The window of an input starts at most an hour before it. -/
theorem Ours.started (h : Ours digests gateway input) :
    input.now - 3600000 < bucketOf input.windowSeconds input.now * input.windowSeconds * 1000 := by
  obtain ⟨-, hseconds, -⟩ := h.fields
  have hwithin := gateway.rateWindowSeconds_within
  have hpos : (0 : Int) < (input.windowSeconds : Int) * 1000 := by rw [hseconds]; omega
  have hlast := Int.emod_lt_of_pos input.now hpos
  have hdiv := Int.emod_add_mul_ediv input.now ((input.windowSeconds : Int) * 1000)
  unfold bucketOf
  rw [hseconds] at hlast hdiv ⊢
  have hmul : input.now / ((gateway.rateWindowSeconds : Int) * 1000) * gateway.rateWindowSeconds *
      1000 = (gateway.rateWindowSeconds : Int) * 1000 *
        (input.now / ((gateway.rateWindowSeconds : Int) * 1000)) := by ring
  have hhour : (gateway.rateWindowSeconds : Int) ≤ 3600 := by exact_mod_cast hwithin.2
  linarith

/-- The primary key tells the counters apart. -/
theorem isOf_iff {row : RateRow} (hinput : Ours digests gateway input)
    (hother : Ours digests gateway other) (hrow : row.IsOf input) :
    row.IsOf other ↔ input.SameCounter other := by
  obtain ⟨htenant, hseconds, -⟩ := hinput.fields
  obtain ⟨htenant', hseconds', -⟩ := hother.fields
  obtain ⟨hrowTenant, hkey, hoperation, hstart⟩ := hrow
  have hpos : (0 : Int) < gateway.rateWindowSeconds := by
    have := gateway.rateWindowSeconds_within
    omega
  unfold RateRow.IsOf RateInput.SameCounter
  rw [hrowTenant, hkey, hoperation, hstart, htenant, htenant', hseconds, hseconds']
  constructor
  · rintro ⟨-, hkey, hoperation, hstart⟩
    exact ⟨hoperation, hkey, Int.eq_of_mul_eq_mul_right hpos.ne' hstart⟩
  · rintro ⟨hoperation, hkey, hbucket⟩
    exact ⟨rfl, hkey, hoperation, by rw [hbucket]⟩

theorem not_expired {row : RateRow} (hours : Ours digests gateway input) (hrow : row.IsOf input) :
    ¬ row.Expired input := by
  rintro ⟨-, hexpired⟩
  have hstarted := hours.started
  have hwithin := gateway.rateWindowSeconds_within
  rw [hrow.2.2.2] at hexpired
  rw [hours.fields.2.1] at hexpired hstarted
  have hday : max 86400 (gateway.rateWindowSeconds * 4) = 86400 := by omega
  rw [hday] at hexpired
  push_cast at hexpired
  linarith

/-- Nothing is removed but rows that are a day old. -/
theorem expired_gone {row : RateRow} (hours : Ours digests gateway input)
    (hexpired : row.Expired input) : row.windowStartedAt * 1000 < input.now - 86400000 := by
  obtain ⟨-, hseconds, -⟩ := hours.fields
  have hwithin := gateway.rateWindowSeconds_within
  have hold := hexpired.2
  omega

theorem isOf_consume {row : RateRow} : (row.consume input).IsOf other ↔ row.IsOf other := Iff.rfl

theorem isOf_fresh : (RateRow.fresh input).IsOf input := ⟨rfl, rfl, rfl, rfl⟩

/-- A counter without a row has not been consumed. -/
theorem TableState.Holds.countOf_eq_zero {state : TableState}
    (hholds : state.Holds digests gateway history) (hours : Ours digests gateway input)
    (htimely : Timely history input)
    (hnone : ∀ row ∈ state.rows, ¬ row.Expired input → ¬ row.IsOf input) :
    countOf history input = 0 := by
  refine List.length_eq_zero_iff.mpr (List.filter_eq_nil_iff.mpr fun earlier hearlier hsame => ?_)
  have hsame : earlier.SameCounter input := of_decide_eq_true hsame
  have hearlierOurs := hholds.ours earlier hearlier
  rcases hholds.present earlier hearlier with ⟨row, hrow, hisOf⟩ | ⟨later, hlater, hgone⟩
  · have hmine : row.IsOf input := (isOf_iff hearlierOurs hours hisOf).mpr hsame
    exact hnone row hrow (not_expired hours hmine) hmine
  · have hstarted := hours.started
    have hclock : later.now ≤ input.now + 82800000 := (htimely later hlater).1
    rw [hearlierOurs.fields.2.1, ← hours.fields.2.1] at hgone
    have hbucket : bucketOf input.windowSeconds earlier.now =
        bucketOf input.windowSeconds input.now := by
      have := hsame.2.2
      rwa [hearlierOurs.fields.2.1, ← hours.fields.2.1] at this
    rw [hbucket] at hgone
    linarith

theorem countOf_congr (hsame : input.SameCounter other) :
    countOf history input = countOf history other := by
  obtain ⟨hoperation, hkey, hbucket⟩ := hsame
  refine congrArg List.length (List.filter_congr fun earlier _ => decide_eq_decide.mpr ?_)
  unfold RateInput.SameCounter
  rw [hoperation, hkey, hbucket]

theorem limit_lt (hours : Ours digests gateway input) : 1 ≤ input.limit ∧ input.limit < 1000000 := by
  obtain ⟨-, -, -, hlimit⟩ := hours.fields
  have hown := gateway.rateLimit_within
  have hall := gateway.globalRateLimit_within
  cases hoperation : input.operation <;> rw [hoperation] at hlimit <;>
    exact ⟨by dsimp only at hlimit; omega, by dsimp only at hlimit; omega⟩

/-- What remains of the rows of earlier counters, and what an input adds. -/
theorem TableState.Holds.step {state next : TableState}
    (hholds : state.Holds digests gateway history) (hours : Ours digests gateway input)
    (hkept : ∀ row ∈ state.rows, ¬ row.Expired input → ∃ row' ∈ next.rows,
      ∀ other, row'.IsOf other ↔ row.IsOf other)
    (hmine : ∃ row ∈ next.rows, row.IsOf input)
    (hrows : ∀ row ∈ next.rows, (row ∈ state.rows ∧ ¬ row.IsOf input) ∨ (row.IsOf input ∧
      row.requestCount = min (countOf history input + 1) 1000000 ∧
      ∀ auditId, row.blockedAuditId = some auditId → auditId = input.blockedAuditId ∨
        ∃ old ∈ state.rows, old.blockedAuditId = some auditId)) :
    next.Holds digests gateway (history ++ [input]) where
  ours := by
    intro other hother
    rcases List.mem_append.mp hother with hother | hother
    · exact hholds.ours other hother
    · rwa [List.mem_singleton.mp hother]
  counted := by
    intro row hrow other hotherOurs hisOf
    rcases hrows row hrow with ⟨hold, hnot⟩ | ⟨hinput, hcount, -⟩
    · have hdiffer : ¬ input.SameCounter other := fun ⟨hoperation, hkey, hbucket⟩ =>
        hnot ((isOf_iff hotherOurs hours hisOf).mpr
          ⟨hoperation.symm, hkey.symm, hbucket.symm⟩)
      rw [hholds.counted row hold other hotherOurs hisOf, countOf_concat, if_neg hdiffer,
        Nat.add_zero]
    · have hsame := (isOf_iff hours hotherOurs hinput).mp hisOf
      rw [hcount, countOf_concat, if_pos hsame, countOf_congr hsame]
  named := by
    intro row hrow auditId hauditId
    have hearlier : ∀ old ∈ state.rows, old.blockedAuditId = some auditId →
        ∃ other ∈ history ++ [input], other.blockedAuditId = auditId := by
      intro old hold hname
      obtain ⟨other, hother, hsame⟩ := hholds.named old hold auditId hname
      exact ⟨other, List.mem_append_left _ hother, hsame⟩
    rcases hrows row hrow with ⟨hold, -⟩ | ⟨-, -, hnames⟩
    · exact hearlier row hold hauditId
    · rcases hnames auditId hauditId with rfl | ⟨old, hold, hname⟩
      · exact ⟨input, List.mem_append_right _ (List.mem_singleton.mpr rfl), rfl⟩
      · exact hearlier old hold hname
  present := by
    intro other hother
    rcases List.mem_append.mp hother with hother | hother
    · rcases hholds.present other hother with ⟨row, hrow, hisOf⟩ | ⟨later, hlater, hgone⟩
      · by_cases hexpired : row.Expired input
        · have hgone := expired_gone hours hexpired
          rw [hisOf.2.2.2] at hgone
          exact .inr ⟨input, List.mem_append_right _ (List.mem_singleton.mpr rfl), hgone⟩
        · obtain ⟨row', hrow', hsame⟩ := hkept row hrow hexpired
          exact .inl ⟨row', hrow', (hsame other).mpr hisOf⟩
      · exact .inr ⟨later, List.mem_append_left _ hlater, hgone⟩
    · obtain rfl := List.mem_singleton.mp hother
      exact .inl hmine

theorem postgres_counts : Counts digests gateway postgres TableState.events Timely
    (TableState.Holds digests gateway) where
  record := fun hholds => ⟨⟨hholds.ours, hholds.counted, hholds.named, hholds.present⟩, rfl⟩
  consume := by
    intro history input state hholds hours htimely decision next hconsume
    obtain ⟨hpos, hbound⟩ := limit_lt hours
    have hkept : ∀ row, row ∈ (state.rows.filter fun row => ¬ row.Expired input) ↔
        row ∈ state.rows ∧ ¬ row.Expired input := by simp
    have hnone : (state.rows.filter fun row => ¬ row.Expired input).find?
        (fun row => row.IsOf input) = none → ∀ row ∈ state.rows, ¬ row.Expired input →
          ¬ row.IsOf input := fun h row hrow hfresh => by
      simpa using List.find?_eq_none.mp h row ((hkept row).mpr ⟨hrow, hfresh⟩)
    cases hfind : (state.rows.filter fun row => ¬ row.Expired input).find?
        fun row => row.IsOf input with
    | none =>
        have hzero : countOf history input = 0 :=
          hholds.countOf_eq_zero hours htimely (hnone hfind)
        simp only [postgres, hfind] at hconsume
        obtain ⟨rfl, rfl⟩ := Prod.mk.inj hconsume
        rw [hzero]
        refine ⟨hholds.step hours ?_ ?_ ?_, rfl, ?_, fun hspent => absurd hspent (by omega)⟩
        · intro row hrow hfresh
          exact ⟨row, List.mem_append_left _ ((hkept row).mpr ⟨hrow, hfresh⟩), fun _ => Iff.rfl⟩
        · exact ⟨_, List.mem_append_right _ (List.mem_singleton.mpr rfl), isOf_fresh⟩
        · intro row hrow
          rcases List.mem_append.mp hrow with hrow | hrow
          · have hold := (hkept row).mp hrow
            exact .inl ⟨hold.1, hnone hfind row hold.1 hold.2⟩
          · obtain rfl := List.mem_singleton.mp hrow
            refine .inr ⟨isOf_fresh, ?_, fun auditId hauditId => ?_⟩
            · rw [hzero]
              rfl
            · cases hauditId
        · rw [decide_eq_true_iff]
          exact Iff.rfl
    | some row =>
        have hrow := (hkept row).mp (List.mem_of_find?_eq_some hfind)
        have hisOf : row.IsOf input := by simpa using List.find?_some hfind
        have hcount := hholds.counted row hrow.1 input hours hisOf
        simp only [postgres, hfind] at hconsume
        obtain ⟨rfl, rfl⟩ := Prod.mk.inj hconsume
        refine ⟨hholds.step hours ?_ ?_ ?_, rfl, ?_, fun hspent => ?_⟩
        · intro old hold hfresh
          by_cases hmine : old.IsOf input
          · exact ⟨old.consume input, Table.mem_updateWhere.mpr
              (.inl ⟨old, (hkept old).mpr ⟨hold, hfresh⟩, hmine, rfl⟩), fun _ => isOf_consume⟩
          · exact ⟨old, Table.mem_updateWhere.mpr
              (.inr ⟨(hkept old).mpr ⟨hold, hfresh⟩, hmine⟩), fun _ => Iff.rfl⟩
        · exact ⟨row.consume input, Table.mem_updateWhere.mpr
            (.inl ⟨row, List.mem_of_find?_eq_some hfind, hisOf, rfl⟩), isOf_consume.mpr hisOf⟩
        · intro new hnew
          rcases Table.mem_updateWhere.mp hnew with ⟨old, hold, hmine, rfl⟩ | ⟨hold, hnot⟩
          · have holdRow := ((hkept old).mp hold).1
            refine .inr ⟨isOf_consume.mpr hmine, ?_, fun auditId hauditId => ?_⟩
            · have holdCount := hholds.counted old holdRow input hours hmine
              change min (old.requestCount + 1) 1000000 = _
              omega
            · simp only [RateRow.consume] at hauditId
              split_ifs at hauditId with hfirst
              · exact .inl (Option.some.inj hauditId).symm
              · exact .inr ⟨old, holdRow, hauditId⟩
          · exact .inl ⟨((hkept new).mp hold).1, hnot⟩
        · have hcapped : min (row.requestCount + 1) 1000000 ≤ input.limit ↔
              countOf history input < input.limit := by omega
          simpa [RateRow.consume] using hcapped
        · -- The stored identifier is the new one only if it was just set.
          have hnew : row.blockedAuditId ≠ some input.blockedAuditId := by
            intro hsame
            obtain ⟨earlier, hearlier, hname⟩ := hholds.named row hrow.1 _ hsame
            exact (htimely earlier hearlier).2 hname
          have hfirst : row.requestCount + 1 = input.limit + 1 ↔
              countOf history input = input.limit := by omega
          refine congrArg some (decide_eq_decide.mpr ?_)
          simp only [RateRow.consume]
          split_ifs with hset
          · exact ⟨fun _ => hfirst.mp hset, fun _ => rfl⟩
          · exact ⟨fun h => absurd h hnew, fun h => absurd (hfirst.mpr h) hset⟩

/-! ## The gate over both stores -/

/-- The clock does not run back by 23 hours, and `createUuid` gives new identifiers. -/
structure Served (run : List GateRequest) : Prop where
  clock : run.Pairwise fun earlier later => earlier.now ≤ later.now + 82800000
  auditIds : (run.flatMap fun request => [request.globalAuditId, request.clientAuditId]).Nodup

theorem Served.sublist {kept : List GateRequest} (h : Served run) (hkept : kept.Sublist run) :
    Served kept :=
  ⟨h.clock.sublist hkept, h.auditIds.sublist (hkept.flatMap _)⟩

/-- An input of the history is one of an earlier request. -/
theorem exists_of_mem_historyOf (h : input ∈ historyOf digests gateway run) :
    ∃ request ∈ run, input.now = request.now ∧
      input.blockedAuditId ∈ [request.globalAuditId, request.clientAuditId] := by
  obtain ⟨⟨request, verdict⟩, hentry, hinput⟩ := List.mem_flatMap.mp h
  have hrequest : request ∈ run := by
    have hrequests : ((rateGate digests gateway).judged run).map Prod.fst = run :=
      map_fst_judged run
    rw [← hrequests]
    exact List.mem_map_of_mem hentry
  have hinputs : input ∈ rateInputs digests gateway request := by
    unfold consumedBy at hinput
    cases verdict with
    | globalBlocked _ => exact List.mem_cons.mpr (.inl (List.mem_singleton.mp hinput))
    | allowed => exact hinput
    | clientBlocked _ => exact hinput
  refine ⟨request, hrequest, ?_⟩
  rcases List.mem_cons.mp hinputs with rfl | hinputs
  · exact ⟨rfl, List.mem_cons_self⟩
  · obtain rfl := List.mem_singleton.mp hinputs
    exact ⟨rfl, List.mem_cons_of_mem _ List.mem_cons_self⟩

theorem Served.admits (h : Served run) :
    @AdmitsRun digests gateway Timely run := by
  rintro done request rest rfl
  have hclock : ∀ earlier ∈ done, earlier.now ≤ request.now + 82800000 := fun earlier hearlier =>
    (List.pairwise_append.mp h.clock).2.2 earlier hearlier request List.mem_cons_self
  have hids := h.auditIds
  rw [List.flatMap_append, List.flatMap_cons, List.nodup_append] at hids
  obtain ⟨-, hhere, hapart⟩ := hids
  have hnew : ∀ auditId ∈ [request.globalAuditId, request.clientAuditId],
      ∀ earlier ∈ historyOf digests gateway done, earlier.now ≤ request.now + 82800000 ∧
        earlier.blockedAuditId ≠ auditId := by
    intro auditId hauditId earlier hearlier
    obtain ⟨before, hbefore, hnow, hid⟩ := exists_of_mem_historyOf hearlier
    refine ⟨hnow ▸ hclock before hbefore, hapart _ (List.mem_flatMap.mpr ⟨before, hbefore, hid⟩) _
      (List.mem_append_left _ hauditId)⟩
  refine ⟨hnew _ List.mem_cons_self, fun earlier hearlier => ?_⟩
  rcases List.mem_append.mp hearlier with hearlier | hearlier
  · exact hnew _ (List.mem_cons_of_mem _ List.mem_cons_self) earlier hearlier
  · obtain rfl := List.mem_singleton.mp hearlier
    refine ⟨?_, fun hsame => ?_⟩
    · exact le_add_of_nonneg_right (a := request.now) (by decide : (0 : Int) ≤ 82800000)
    · have hpair := (List.nodup_append.mp hhere).1
      exact (List.nodup_cons.mp hpair).1 (List.mem_singleton.mpr hsame)

variable (digests gateway)

/-- A run over an empty store in memory. -/
def serveInMemory (run : List GateRequest) : List Entry × List AuditInput :=
  let out := serveFrom digests gateway (fun request => inMemory request.repositoryNow) run
    ⟨[], [], []⟩
  (out.1, out.2.audits)

/-- A run over an empty table. -/
def servePostgres (run : List GateRequest) : List Entry × List AuditInput :=
  let out := serveFrom digests gateway (fun _ => postgres) run ⟨[], []⟩
  (out.1, out.2.events)

/-- **The rate gate.**  Over both stores a client and all clients keep to their limits, each
exhausted counter is audited once, and blocked requests of others matter to a client only if they
took room from it. -/
theorem rateGate_fair (run : List GateRequest) :
    FairGate digests gateway (serveInMemory digests gateway) run ∧
      (Served run → FairGate digests gateway (servePostgres digests gateway) run) := by
  constructor
  · exact Counts.fair (fun request => inMemory_counts request.repositoryNow) (fun _ _ => rfl) rfl
      fun _ _ _ _ _ _ => ⟨trivial, trivial⟩
  · intro h
    have hempty : TableState.Holds digests gateway [] ⟨[], []⟩ :=
      ⟨by simp, by simp, by simp, by simp⟩
    exact Counts.fair (fun _ => postgres_counts) hempty rfl fun kept hkept =>
      (h.sublist hkept).admits

end Stores

/-! ## A client that takes room from another -/

def sampleGlobalKey : JsString :=
  js "dc5e80ace81fabd7" ++ js "bb068c62ae6f4c73" ++ js "e747e97fe91e4fae" ++ js "d4bbe2c7501a5da6"

/-- The keys of two clients under the sample secret. -/
def sampleKeyA : JsString :=
  js "e09345b410b72f3b" ++ js "0d8065b8fe70efaf" ++ js "2d0956194e165707" ++ js "c3880eff03528fd6"

def sampleKeyB : JsString :=
  js "592458c20c1dc495" ++ js "2a874d4ef449d30b" ++ js "3d6e262bbb30d435" ++ js "9379305434360f9c"

def sampleHmac (text : JsString) : JsString :=
  if text = js "10.0.0.1" ++ [0x0a] ++ js "agent" then sampleKeyA else sampleKeyB

/-- On the texts of the samples. -/
def sampleDigests : Digests where
  sha256Hex _ := sampleGlobalKey
  hmacHex _ text := sampleHmac text
  length_sha256Hex _ := by decide
  length_hmacHex _ text := by
    unfold sampleHmac
    split_ifs <;> decide

def sampleGateway : Gateway where
  tenantId := js "8f1f2c3e-" ++ js "5a6b-4c7d-" ++ js "8e9f-" ++ js "0a1b2c3d4e5f"
  clientKeySecret := js "rate-limit-secret-" ++ js "0123456789abcdef"
  rateLimit := 1
  globalRateLimit := 2
  rateWindowSeconds := 60
  rateLimit_within := by decide
  globalRateLimit_within := by decide
  rateWindowSeconds_within := by decide

def sampleRequest (address : JsString) (number : Nat) : GateRequest where
  endpoint := .query
  remoteAddress := some address
  userAgent := some (js "agent")
  requestId := js "request-" ++ Api.numberText number
  now := 1784000000000 + number
  repositoryNow := 1784000000000 + number
  globalAuditId := 2 * number
  clientAuditId := 2 * number + 1

/-- Two requests of one client and then one of another. -/
def sampleRun : List GateRequest :=
  [sampleRequest (js "10.0.0.1") 1, sampleRequest (js "10.0.0.1") 2,
    sampleRequest (js "10.0.0.2") 3]

theorem sampleRun_served : Served sampleRun := by
  refine ⟨?_, by decide +kernel⟩
  simp only [sampleRun, sampleRequest, List.pairwise_cons, List.mem_cons, List.not_mem_nil]
  refine ⟨?_, ?_, by simp⟩
  · rintro r (rfl | rfl | h)
    · decide
    · decide
    · exact absurd h not_false
  · rintro r (rfl | h)
    · decide
    · exact absurd h not_false

/-- The limit of a client is one request and that of all is two: the second request of the first
client is blocked and takes the room of the other client. -/
theorem room_taken : ¬ ∀ (digests : Digests) (gateway : Gateway) (run : List GateRequest)
    (b : JsString) (kept : List GateRequest), Served run →
    Removes (BlockedOther digests gateway b) Prod.fst (servePostgres digests gateway run).1 kept →
      decisionsOf digests gateway b (servePostgres digests gateway kept).1 =
        decisionsOf digests gateway b (servePostgres digests gateway run).1 := by
  intro h
  have hkept : ((servePostgres sampleDigests sampleGateway sampleRun).1.filter fun entry =>
      ¬ BlockedOther sampleDigests sampleGateway sampleKeyB entry).map Prod.fst =
        [sampleRequest (js "10.0.0.1") 1, sampleRequest (js "10.0.0.2") 3] := by decide +kernel
  have hwithout := h sampleDigests sampleGateway sampleRun sampleKeyB _ sampleRun_served
    (removes_filter _)
  rw [hkept] at hwithout
  revert hwithout
  decide +kernel

theorem rateGate_fair_sample :
    FairGate sampleDigests sampleGateway (servePostgres sampleDigests sampleGateway) sampleRun :=
  (rateGate_fair sampleDigests sampleGateway sampleRun).2 sampleRun_served

end PublicGateway
