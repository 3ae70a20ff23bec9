import Mathlib.Data.List.Induction
import Mathlib.Tactic

/-!
# A gate with two counters

Each request falls in a window and comes from a client.  The gate stops a request when the
window has had `globalLimit` requests, and when its client has had `clientLimit` requests in the
window; the first request that meets a limit is noted.  Requests that the second counter stops
count for the first one all the same, so removing them can make room for others.  The gate is
otherwise as one expects (`unaffected_iff`, `length_allowedIn_le`, `length_notedIn`).
-/

namespace FixedWindow

/-- Requests `ρ`, in windows `ω`, from clients `κ`. -/
structure Gate (ρ ω κ : Type*) where
  window : ρ → ω
  client : ρ → κ
  globalLimit : Nat
  clientLimit : Nat

/-- What a request meets, with whether it is the first one to meet this limit. -/
inductive Verdict
  | allowed
  | globalBlocked (first : Bool)
  | clientBlocked (first : Bool)
  deriving DecidableEq, Repr

/-- `kept` is what remains of the requests after some entries that may be removed are removed. -/
inductive Removes {ε ρ : Type*} (removable : ε → Prop) (request : ε → ρ) : List ε → List ρ → Prop
  | nil : Removes removable request [] []
  | keep {entry entries kept} : Removes removable request entries kept →
      Removes removable request (entry :: entries) (request entry :: kept)
  | drop {entry entries kept} : removable entry → Removes removable request entries kept →
      Removes removable request (entry :: entries) kept

section Gate

variable {ρ ω κ : Type*} [DecidableEq ω] [DecidableEq κ] (gate : Gate ρ ω κ)

namespace Gate

/-- The requests in a window. -/
def inWindow (w : ω) (run : List ρ) : List ρ := run.filter fun r => gate.window r = w

/-- The requests of a client in a window. -/
def ofClient (w : ω) (c : κ) (run : List ρ) : List ρ :=
  (gate.inWindow w run).filter fun r => gate.client r = c

def verdict (before : List ρ) (r : ρ) : Verdict :=
  let all := (gate.inWindow (gate.window r) before).length
  let own := (gate.ofClient (gate.window r) (gate.client r) before).length
  if gate.globalLimit ≤ all then .globalBlocked (all = gate.globalLimit)
  else if gate.clientLimit ≤ own then .clientBlocked (own = gate.clientLimit)
  else .allowed

/-- The requests of a run that comes after another one, with their verdicts. -/
def judgedFrom : List ρ → List ρ → List (ρ × Verdict)
  | _, [] => []
  | before, r :: rest => (r, gate.verdict before r) :: judgedFrom (before ++ [r]) rest

def judged (run : List ρ) : List (ρ × Verdict) := gate.judgedFrom [] run

/-- The requests of a client with whether they are allowed. -/
def decisionsOf (b : κ) (run : List ρ) : List (ρ × Bool) :=
  ((gate.judged run).filter fun entry => gate.client entry.1 = b).map fun entry =>
    (entry.1, decide (entry.2 = .allowed))

/-- An entry that may be removed where the decisions of a client are compared: it is blocked and
of another client. -/
def Removable (b : κ) (entry : ρ × Verdict) : Prop :=
  entry.2 ≠ .allowed ∧ gate.client entry.1 ≠ b

/-- The requests of a window that the first counter lets pass, and the others. -/
def first (w : ω) (run : List ρ) : List ρ := (gate.inWindow w run).take gate.globalLimit

def beyond (w : ω) (run : List ρ) : List ρ := (gate.inWindow w run).drop gate.globalLimit

/-- Where the client came too late and another one was over its limit before the window was
full, the client had used up its own limit. -/
def NoRoomTaken (b : κ) (run : List ρ) : Prop :=
  ∀ w a, a ≠ b → gate.clientLimit < (gate.ofClient w a (gate.first w run)).length →
    (∃ r ∈ gate.beyond w run, gate.client r = b) →
    gate.clientLimit ≤ (gate.ofClient w b (gate.first w run)).length

end Gate

variable {gate} {run before kept : List ρ} {r : ρ} {w : ω} {a b : κ}

/-! ## Verdicts -/

theorem verdict_allowed_iff : gate.verdict before r = .allowed ↔
    (gate.inWindow (gate.window r) before).length < gate.globalLimit ∧
      (gate.ofClient (gate.window r) (gate.client r) before).length < gate.clientLimit := by
  unfold Gate.verdict
  by_cases hall : gate.globalLimit ≤ (gate.inWindow (gate.window r) before).length
  · simp [hall, not_lt.mpr hall]
  · by_cases hown : gate.clientLimit ≤
        (gate.ofClient (gate.window r) (gate.client r) before).length
    · simp [hall, hown, not_lt.mpr hown]
    · simp [hall, hown, not_le.mp hall, not_le.mp hown]

theorem judgedFrom_append (before xs ys : List ρ) : gate.judgedFrom before (xs ++ ys) =
    gate.judgedFrom before xs ++ gate.judgedFrom (before ++ xs) ys := by
  induction xs generalizing before with
  | nil => simp [Gate.judgedFrom]
  | cons x xs ih => simp [Gate.judgedFrom, ih]

theorem judged_append (xs ys : List ρ) :
    gate.judged (xs ++ ys) = gate.judged xs ++ gate.judgedFrom xs ys :=
  judgedFrom_append [] xs ys

theorem judged_concat (run : List ρ) (r : ρ) :
    gate.judged (run ++ [r]) = gate.judged run ++ [(r, gate.verdict run r)] :=
  judged_append run [r]

theorem judgedFrom_fst (before run : List ρ) : (gate.judgedFrom before run).map Prod.fst = run := by
  induction run generalizing before with
  | nil => rfl
  | cons r run ih => simp [Gate.judgedFrom, ih]

omit [DecidableEq κ] in
theorem inWindow_concat (w : ω) (run : List ρ) (r : ρ) : gate.inWindow w (run ++ [r]) =
    if gate.window r = w then gate.inWindow w run ++ [r] else gate.inWindow w run := by
  unfold Gate.inWindow
  rw [List.filter_append]
  by_cases hw : gate.window r = w <;> simp [hw]

omit [DecidableEq κ] in
theorem inWindow_inWindow (w : ω) (run : List ρ) :
    gate.inWindow w (gate.inWindow w run) = gate.inWindow w run := by
  simp [Gate.inWindow]

theorem ofClient_inWindow (w : ω) (c : κ) (run : List ρ) :
    gate.ofClient w c (gate.inWindow w run) = gate.ofClient w c run := by
  rw [Gate.ofClient, inWindow_inWindow, Gate.ofClient]

/-- The verdicts in a window do not depend on the other windows. -/
theorem judged_inWindow (w : ω) (run : List ρ) :
    (gate.judged run).filter (fun entry => gate.window entry.1 = w) =
      gate.judged (gate.inWindow w run) := by
  induction run using List.reverseRecOn with
  | nil => rfl
  | append_singleton run r ih =>
      rw [judged_concat, List.filter_append, ih, inWindow_concat]
      by_cases hw : gate.window r = w
      · subst hw
        have hverdict : gate.verdict (gate.inWindow (gate.window r) run) r = gate.verdict run r := by
          simp only [Gate.verdict, inWindow_inWindow, ofClient_inWindow]
        rw [if_pos rfl, judged_concat, hverdict]
        simp
      · rw [if_neg hw]
        simp [hw]

/-! ## Removals -/

section Removes

variable {ε ρ : Type*} {removable : ε → Prop} {request : ε → ρ} {entries others : List ε}
  {kept : List ρ}

theorem removes_append : Removes removable request (entries ++ others) kept ↔
    ∃ left right, kept = left ++ right ∧ Removes removable request entries left ∧
      Removes removable request others right := by
  constructor
  · intro h
    induction entries generalizing kept with
    | nil => exact ⟨[], kept, rfl, .nil, h⟩
    | cons entry entries ih =>
        cases h with
        | keep h =>
            obtain ⟨left, right, rfl, hleft, hright⟩ := ih h
            exact ⟨_ :: left, right, rfl, .keep hleft, hright⟩
        | drop hremovable h =>
            obtain ⟨left, right, rfl, hleft, hright⟩ := ih h
            exact ⟨left, right, rfl, .drop hremovable hleft, hright⟩
  · rintro ⟨left, right, rfl, hleft, hright⟩
    induction hleft with
    | nil => exact hright
    | keep _ ih => exact .keep ih
    | drop hremovable _ ih => exact .drop hremovable ih

theorem Removes.sublist (h : Removes removable request entries kept) :
    kept.Sublist (entries.map request) := by
  induction h with
  | nil => exact List.Sublist.slnil
  | keep _ ih => exact ih.cons_cons _
  | drop _ _ ih => exact ih.cons _

theorem Removes.filter (h : Removes removable request entries kept) (p : ρ → Bool) :
    Removes removable request (entries.filter (p ∘ request)) (kept.filter p) := by
  induction h with
  | nil => exact .nil
  | @keep entry entries kept _ ih =>
      by_cases hp : p (request entry) = true
      · rw [List.filter_cons_of_pos (by exact hp), List.filter_cons_of_pos hp]
        exact .keep ih
      · rw [List.filter_cons_of_neg (by exact hp), List.filter_cons_of_neg hp]
        exact ih
  | @drop entry entries kept hremovable _ ih =>
      by_cases hp : p (request entry) = true
      · rw [List.filter_cons_of_pos (by exact hp)]
        exact .drop hremovable ih
      · rw [List.filter_cons_of_neg (by exact hp)]
        exact ih

/-- Nothing is removed where nothing may be. -/
theorem Removes.all (h : Removes removable request entries kept)
    (hnone : ∀ entry ∈ entries, ¬ removable entry) : kept = entries.map request := by
  induction h with
  | nil => rfl
  | keep _ ih =>
      exact congrArg _ (ih fun entry hentry => hnone entry (List.mem_cons_of_mem _ hentry))
  | drop hremovable _ _ => exact absurd hremovable (hnone _ List.mem_cons_self)

theorem removes_refl (removable : ε → Prop) (request : ε → ρ) (entries : List ε) :
    Removes removable request entries (entries.map request) := by
  induction entries with
  | nil => exact .nil
  | cons entry entries ih => exact .keep ih

theorem removes_map {δ : Type*} {f : δ → ε} {entries : List δ} :
    Removes removable request (entries.map f) kept ↔
      Removes (removable ∘ f) (request ∘ f) entries kept := by
  constructor
  · intro h
    induction entries generalizing kept with
    | nil =>
        cases h
        exact .nil
    | cons entry entries ih =>
        cases h with
        | keep h => exact .keep (ih h)
        | drop hremovable h => exact .drop hremovable (ih h)
  · intro h
    induction h with
    | nil => exact .nil
    | keep _ ih => exact .keep ih
    | drop hremovable _ ih => exact .drop hremovable ih

/-- All entries that may be removed can be. -/
theorem removes_filter [DecidablePred removable] (entries : List ε) :
    Removes removable request entries
      ((entries.filter fun entry => ¬ removable entry).map request) := by
  induction entries with
  | nil => exact .nil
  | cons entry entries ih =>
      by_cases hremovable : removable entry
      · rw [List.filter_cons_of_neg (by simpa using hremovable)]
        exact .drop hremovable ih
      · rw [List.filter_cons_of_pos (by simpa using hremovable)]
        exact .keep ih

end Removes

/-! ## Counts -/

theorem ofClient_concat (w : ω) (c : κ) (run : List ρ) (r : ρ) : gate.ofClient w c (run ++ [r]) =
    if gate.window r = w ∧ gate.client r = c then gate.ofClient w c run ++ [r]
    else gate.ofClient w c run := by
  unfold Gate.ofClient
  rw [inWindow_concat]
  by_cases hw : gate.window r = w
  · by_cases hc : gate.client r = c <;> simp [hw, hc]
  · simp [hw]

theorem ofClient_append (w : ω) (c : κ) (xs ys : List ρ) :
    gate.ofClient w c (xs ++ ys) = gate.ofClient w c xs ++ gate.ofClient w c ys := by
  rw [Gate.ofClient, Gate.inWindow, List.filter_append, List.filter_append]
  rfl

/-- An entry of a run has the verdict of its place. -/
theorem exists_of_mem_judged {entry : ρ × Verdict} (h : entry ∈ gate.judged run) :
    ∃ before after, run = before ++ entry.1 :: after ∧
      entry.2 = gate.verdict before entry.1 := by
  induction run using List.reverseRecOn with
  | nil => exact absurd h List.not_mem_nil
  | append_singleton run r ih =>
      rw [judged_concat] at h
      rcases List.mem_append.mp h with h | h
      · obtain ⟨before, after, rfl, hverdict⟩ := ih h
        exact ⟨before, after ++ [r], by simp, hverdict⟩
      · obtain rfl := List.mem_singleton.mp h
        exact ⟨run, [], rfl, rfl⟩

/-- One more request adds itself to those with a property, if it has it. -/
theorem length_filter_judged (p : ρ × Verdict → Prop) [DecidablePred p] (run : List ρ) (r : ρ) :
    ((gate.judged (run ++ [r])).filter fun entry => p entry).length =
      ((gate.judged run).filter fun entry => p entry).length +
        if p (r, gate.verdict run r) then 1 else 0 := by
  rw [judged_concat, List.filter_append, List.length_append]
  by_cases hp : p (r, gate.verdict run r) <;> simp [hp]

/-- The allowed requests of a client in a window. -/
def Gate.allowedOf (gate : Gate ρ ω κ) (w : ω) (c : κ) (run : List ρ) : List (ρ × Verdict) :=
  (gate.judged run).filter fun entry =>
    entry.2 = .allowed ∧ gate.window entry.1 = w ∧ gate.client entry.1 = c

/-- The allowed requests in a window. -/
def Gate.allowedIn (gate : Gate ρ ω κ) (w : ω) (run : List ρ) : List (ρ × Verdict) :=
  (gate.judged run).filter fun entry => entry.2 = .allowed ∧ gate.window entry.1 = w

/-- **The limit of all.**  A window has at most `globalLimit` allowed requests. -/
theorem length_allowedIn_le (w : ω) (run : List ρ) :
    (gate.allowedIn w run).length ≤ gate.globalLimit := by
  have hboth : (gate.allowedIn w run).length ≤ gate.globalLimit ∧
      (gate.allowedIn w run).length ≤ (gate.inWindow w run).length := by
    induction run using List.reverseRecOn with
    | nil => simp [Gate.allowedIn, Gate.judged, Gate.judgedFrom]
    | append_singleton run r ih =>
        obtain ⟨hlimit, hcount⟩ := ih
        rw [Gate.allowedIn, length_filter_judged, ← Gate.allowedIn, inWindow_concat]
        by_cases hw : gate.window r = w
        · by_cases hallowed : gate.verdict run r = .allowed
          · have hroom := (verdict_allowed_iff.mp hallowed).1
            rw [hw] at hroom
            rw [if_pos ⟨hallowed, hw⟩, if_pos hw, List.length_append, List.length_singleton]
            omega
          · rw [if_neg fun h => hallowed h.1, if_pos hw, List.length_append, List.length_singleton]
            omega
        · rw [if_neg fun h => hw h.2, if_neg hw]
          exact ⟨hlimit, hcount⟩
  exact hboth.1

/-- **The limit of a client.**  A client has at most `clientLimit` allowed requests in a window. -/
theorem length_allowedOf_le (w : ω) (c : κ) (run : List ρ) :
    (gate.allowedOf w c run).length ≤ gate.clientLimit := by
  have hboth : (gate.allowedOf w c run).length ≤ gate.clientLimit ∧
      (gate.allowedOf w c run).length ≤ (gate.ofClient w c run).length := by
    induction run using List.reverseRecOn with
    | nil => simp [Gate.allowedOf, Gate.judged, Gate.judgedFrom]
    | append_singleton run r ih =>
        obtain ⟨hlimit, hcount⟩ := ih
        rw [Gate.allowedOf, length_filter_judged, ← Gate.allowedOf, ofClient_concat]
        by_cases hmine : gate.window r = w ∧ gate.client r = c
        · by_cases hallowed : gate.verdict run r = .allowed
          · have hroom := (verdict_allowed_iff.mp hallowed).2
            rw [hmine.1, hmine.2] at hroom
            rw [if_pos ⟨hallowed, hmine⟩, if_pos hmine, List.length_append, List.length_singleton]
            omega
          · rw [if_neg fun h => hallowed h.1, if_pos hmine, List.length_append,
              List.length_singleton]
            omega
        · rw [if_neg fun h => hmine h.2, if_neg hmine]
          exact ⟨hlimit, hcount⟩
  exact hboth.1

/-- The requests in a window that are noted as the first one to meet the first limit. -/
def Gate.notedIn (gate : Gate ρ ω κ) (w : ω) (run : List ρ) : List (ρ × Verdict) :=
  (gate.judged run).filter fun entry =>
    entry.2 = .globalBlocked true ∧ gate.window entry.1 = w

/-- Those of a client that are noted as the first one to meet its limit. -/
def Gate.notedOf (gate : Gate ρ ω κ) (w : ω) (c : κ) (run : List ρ) : List (ρ × Verdict) :=
  (gate.judged run).filter fun entry =>
    entry.2 = .clientBlocked true ∧ gate.window entry.1 = w ∧ gate.client entry.1 = c

theorem verdict_globalBlocked_iff : gate.verdict before r = .globalBlocked true ↔
    (gate.inWindow (gate.window r) before).length = gate.globalLimit := by
  unfold Gate.verdict
  by_cases hall : gate.globalLimit ≤ (gate.inWindow (gate.window r) before).length
  · simp [hall]
  · have hne : (gate.inWindow (gate.window r) before).length ≠ gate.globalLimit := by omega
    by_cases hown : gate.clientLimit ≤
        (gate.ofClient (gate.window r) (gate.client r) before).length
    · simp [hall, hown, hne]
    · simp [hall, hown, hne]

theorem verdict_clientBlocked_iff : gate.verdict before r = .clientBlocked true ↔
    (gate.inWindow (gate.window r) before).length < gate.globalLimit ∧
      (gate.ofClient (gate.window r) (gate.client r) before).length = gate.clientLimit := by
  unfold Gate.verdict
  by_cases hall : gate.globalLimit ≤ (gate.inWindow (gate.window r) before).length
  · simp [hall, not_lt.mpr hall]
  · by_cases hown : gate.clientLimit ≤
        (gate.ofClient (gate.window r) (gate.client r) before).length
    · simp [hall, hown, not_le.mp hall]
    · have hne : (gate.ofClient (gate.window r) (gate.client r) before).length ≠
          gate.clientLimit := by omega
      simp [hall, hown, hne]

/-- **Noted once.**  A window that has more requests than the limit has one noted request. -/
theorem length_notedIn (w : ω) (run : List ρ) : (gate.notedIn w run).length =
    if gate.globalLimit < (gate.inWindow w run).length then 1 else 0 := by
  induction run using List.reverseRecOn with
  | nil => simp [Gate.notedIn, Gate.judged, Gate.judgedFrom, Gate.inWindow]
  | append_singleton run r ih =>
      rw [Gate.notedIn, length_filter_judged, ← Gate.notedIn, inWindow_concat]
      by_cases hw : gate.window r = w
      · subst hw
        rw [if_pos rfl, List.length_append, List.length_singleton]
        by_cases hfirst : (gate.inWindow (gate.window r) run).length = gate.globalLimit
        · rw [if_pos ⟨verdict_globalBlocked_iff.mpr hfirst, rfl⟩, ih]
          split_ifs <;> omega
        · rw [if_neg fun h => hfirst (verdict_globalBlocked_iff.mp h.1), ih]
          split_ifs <;> omega
      · rw [if_neg fun h => hw h.2, if_neg hw]
        exact ih

/-- **Noted once.**  A client that is over its limit before the window is full has one noted
request. -/
theorem length_notedOf (w : ω) (c : κ) (run : List ρ) : (gate.notedOf w c run).length =
    if gate.clientLimit < (gate.ofClient w c (gate.first w run)).length then 1 else 0 := by
  induction run using List.reverseRecOn with
  | nil =>
      simp [Gate.notedOf, Gate.judged, Gate.judgedFrom, Gate.first, Gate.ofClient, Gate.inWindow]
  | append_singleton run r ih =>
      rw [Gate.notedOf, length_filter_judged, ← Gate.notedOf]
      by_cases hw : gate.window r = w
      · subst hw
        by_cases hroom : (gate.inWindow (gate.window r) run).length < gate.globalLimit
        · have hfirst : gate.first (gate.window r) run = gate.inWindow (gate.window r) run :=
            List.take_of_length_le hroom.le
          have hnext : gate.first (gate.window r) (run ++ [r]) =
              gate.inWindow (gate.window r) run ++ [r] := by
            rw [Gate.first, inWindow_concat, if_pos rfl]
            exact List.take_of_length_le (by simpa using hroom)
          rw [hfirst, ofClient_inWindow] at ih
          rw [hnext, ofClient_concat, ofClient_inWindow]
          by_cases hc : gate.client r = c
          · subst hc
            have hmine : gate.window r = gate.window r ∧ gate.client r = gate.client r := ⟨rfl, rfl⟩
            rw [if_pos hmine, List.length_append, List.length_singleton]
            by_cases hlimit : (gate.ofClient (gate.window r) (gate.client r) run).length =
                gate.clientLimit
            · rw [if_pos ⟨verdict_clientBlocked_iff.mpr ⟨hroom, hlimit⟩, hmine⟩, ih]
              split_ifs <;> omega
            · rw [if_neg fun h => hlimit (verdict_clientBlocked_iff.mp h.1).2, ih]
              split_ifs <;> omega
          · have hother : ¬ (gate.window r = gate.window r ∧ gate.client r = c) := fun h => hc h.2
            rw [if_neg fun h => hother h.2, if_neg hother]
            exact ih
        · have hnext : gate.first (gate.window r) (run ++ [r]) =
              gate.first (gate.window r) run := by
            rw [Gate.first, inWindow_concat, if_pos rfl]
            exact List.take_append_of_le_length (not_lt.mp hroom)
          rw [hnext, if_neg fun h => hroom (verdict_clientBlocked_iff.mp h.1).1]
          exact ih
      · have hnext : gate.first w (run ++ [r]) = gate.first w run := by
          rw [Gate.first, inWindow_concat, if_neg hw, Gate.first]
        rw [hnext, if_neg fun h => hw h.2.1]
        exact ih

/-! ## Removing blocked requests of others -/

theorem map_fst_judged (run : List ρ) : (gate.judged run).map Prod.fst = run :=
  judgedFrom_fst [] run

/-- In what remains, the requests of the client are all there. -/
theorem Removes.requestsOf (h : Removes (gate.Removable b) Prod.fst (gate.judged run) kept) :
    kept.filter (fun r => gate.client r = b) = run.filter fun r => gate.client r = b := by
  have hall := (h.filter fun r => gate.client r = b).all fun entry hentry hremovable =>
    hremovable.2 (of_decide_eq_true (List.mem_filter.mp hentry).2)
  rw [hall, ← List.filter_map, map_fst_judged]

theorem Removes.ofClient (h : Removes (gate.Removable b) Prod.fst (gate.judged run) kept) (w : ω) :
    gate.ofClient w b kept = gate.ofClient w b run := by
  rw [Gate.ofClient, Gate.inWindow, List.filter_comm, h.requestsOf, List.filter_comm]
  rfl

theorem Removes.inWindow_le (h : Removes (gate.Removable b) Prod.fst (gate.judged run) kept)
    (w : ω) : (gate.inWindow w kept).length ≤ (gate.inWindow w run).length := by
  have hsublist := h.sublist
  rw [map_fst_judged] at hsublist
  exact (hsublist.filter _).length_le

/-- Where no other client is over its limit before the window is full, the window stays full. -/
theorem Removes.full (h : Removes (gate.Removable b) Prod.fst (gate.judged run) kept)
    (hfull : gate.globalLimit ≤ (gate.inWindow w run).length)
    (hothers : ∀ a, a ≠ b →
      (gate.ofClient w a (gate.first w run)).length ≤ gate.clientLimit) :
    gate.globalLimit ≤ (gate.inWindow w kept).length := by
  have hwindow := h.filter fun r => gate.window r = w
  have hlocal : (gate.judged run).filter ((fun r => decide (gate.window r = w)) ∘ Prod.fst) =
      gate.judged (gate.inWindow w run) := judged_inWindow w run
  have hsplit : gate.inWindow w run = gate.first w run ++ gate.beyond w run :=
    (List.take_append_drop _ _).symm
  rw [hlocal, hsplit, judged_append] at hwindow
  obtain ⟨left, right, hkept, hleft, -⟩ := removes_append.mp hwindow
  -- Each of the first requests of another client is allowed.
  have hnone : ∀ entry ∈ gate.judged (gate.first w run), ¬ gate.Removable b entry := by
    rintro entry hentry ⟨hblocked, hother⟩
    obtain ⟨before, after, hrun, hverdict⟩ := exists_of_mem_judged hentry
    have hlength : (gate.first w run).length ≤ gate.globalLimit := List.length_take_le _ _
    have hw : ∀ r ∈ gate.first w run, gate.window r = w := fun r hr =>
      of_decide_eq_true (List.mem_filter.mp (List.mem_of_mem_take hr)).2
    have hentryWindow : gate.window entry.1 = w := hw _ (by rw [hrun]; simp)
    refine hblocked (hverdict.trans (verdict_allowed_iff.mpr ⟨?_, ?_⟩))
    · have hbefore : (gate.inWindow (gate.window entry.1) before).length ≤ before.length :=
        List.length_filter_le _ _
      rw [hrun, List.length_append, List.length_cons] at hlength
      omega
    · have hown := hothers _ hother
      rw [hrun, List.append_cons, ofClient_append, ofClient_concat,
        if_pos ⟨hentryWindow, rfl⟩, List.length_append, List.length_append,
        List.length_singleton] at hown
      rw [hentryWindow]
      omega
  have hfirst : left = gate.first w run := (hleft.all hnone).trans (map_fst_judged _)
  have hcount : (gate.first w run).length = gate.globalLimit := List.length_take_of_le hfull
  have hlength := congrArg List.length hkept
  rw [List.length_append, hfirst, hcount] at hlength
  have hkeptWindow : (gate.inWindow w kept).length = gate.globalLimit + right.length := hlength
  omega

/-! ## Where removals change nothing -/

theorem decisionsOf_append (b : κ) (xs ys : List ρ) : gate.decisionsOf b (xs ++ ys) =
    gate.decisionsOf b xs ++ ((gate.judgedFrom xs ys).filter fun entry =>
      gate.client entry.1 = b).map fun entry => (entry.1, decide (entry.2 = .allowed)) := by
  rw [Gate.decisionsOf, judged_append, List.filter_append, List.map_append]
  rfl

theorem decisionsOf_concat (b : κ) (run : List ρ) (r : ρ) : gate.decisionsOf b (run ++ [r]) =
    if gate.client r = b then
      gate.decisionsOf b run ++ [(r, decide (gate.verdict run r = .allowed))]
    else gate.decisionsOf b run := by
  rw [decisionsOf_append]
  by_cases hb : gate.client r = b <;> simp [Gate.judgedFrom, hb]

theorem length_decisionsOf (b : κ) (run : List ρ) :
    (gate.decisionsOf b run).length = (run.filter fun r => gate.client r = b).length := by
  have hrun : run = (gate.judged run).map Prod.fst := (map_fst_judged run).symm
  rw [Gate.decisionsOf, List.length_map]
  conv_rhs => rw [hrun, List.filter_map, List.length_map]
  rfl

omit [DecidableEq κ] in
/-- Once a window is full, its first requests stay. -/
theorem first_append_of_full (hfull : gate.globalLimit ≤ (gate.inWindow w run).length)
    (rest : List ρ) : gate.first w (run ++ rest) = gate.first w run := by
  rw [Gate.first, Gate.inWindow, List.filter_append]
  exact List.take_append_of_le_length hfull

theorem NoRoomTaken.of_append {rest : List ρ} (h : gate.NoRoomTaken b (run ++ rest)) :
    gate.NoRoomTaken b run := by
  rintro w a hab hover ⟨r, hr, hb⟩
  have hfull : gate.globalLimit ≤ (gate.inWindow w run).length := by
    have hpos := List.length_pos_of_mem hr
    rw [Gate.beyond, List.length_drop] at hpos
    omega
  have hbeyond : r ∈ gate.beyond w (run ++ rest) := by
    rw [Gate.beyond, Gate.inWindow, List.filter_append, List.drop_append]
    exact List.mem_append_left _ hr
  have hroom := h w a hab
  rw [first_append_of_full hfull] at hroom
  exact hroom hover ⟨r, hbeyond, hb⟩

/-- A blocked request of the client stays blocked, if nobody took room from it. -/
theorem Removes.verdict (h : Removes (gate.Removable b) Prod.fst (gate.judged run) kept)
    (hb : gate.client r = b) (hroom : gate.NoRoomTaken b (run ++ [r])) :
    gate.verdict kept r = .allowed ↔ gate.verdict run r = .allowed := by
  subst hb
  rw [verdict_allowed_iff, verdict_allowed_iff, h.ofClient]
  constructor
  · rintro ⟨hkept, hown⟩
    refine ⟨?_, hown⟩
    by_contra hnot
    have hfull := not_lt.mp hnot
    refine absurd (h.full hfull fun a hother => ?_) (not_le.mpr hkept)
    by_contra hover
    have hbeyond : r ∈ gate.beyond (gate.window r) (run ++ [r]) := by
      rw [Gate.beyond, inWindow_concat, if_pos rfl, List.drop_append_of_le_length hfull]
      exact List.mem_append_right _ (List.mem_singleton.mpr rfl)
    have hspent := hroom (gate.window r) a hother
    rw [first_append_of_full hfull] at hspent
    have hle : (gate.ofClient (gate.window r) (gate.client r)
        (gate.first (gate.window r) run)).length ≤
          (gate.ofClient (gate.window r) (gate.client r) run).length := by
      rw [← ofClient_inWindow _ _ run]
      exact (((List.take_sublist _ _).filter _).filter _).length_le
    have := hspent (not_le.mp hover) ⟨r, hbeyond, rfl⟩
    omega
  · rintro ⟨hall, hown⟩
    exact ⟨(h.inWindow_le _).trans_lt hall, hown⟩

theorem Removes.decisionsOf (h : Removes (gate.Removable b) Prod.fst (gate.judged run) kept)
    (hroom : gate.NoRoomTaken b run) : gate.decisionsOf b kept = gate.decisionsOf b run := by
  induction run using List.reverseRecOn generalizing kept with
  | nil =>
      cases h
      rfl
  | append_singleton run r ih =>
      rw [judged_concat] at h
      obtain ⟨left, right, rfl, hleft, hright⟩ := removes_append.mp h
      have hbefore := ih hleft (NoRoomTaken.of_append hroom)
      rw [decisionsOf_concat]
      cases hright with
      | keep hnil =>
          cases hnil
          rw [decisionsOf_concat, hbefore]
          by_cases hb : gate.client r = b
          · rw [if_pos hb, if_pos hb, decide_eq_decide.mpr (hleft.verdict hb hroom)]
          · rw [if_neg hb, if_neg hb]
      | drop hremovable hnil =>
          cases hnil
          rw [if_neg hremovable.2, List.append_nil, hbefore]

/-- A client that asks more often than its limit is blocked. -/
theorem exists_blocked (h : gate.clientLimit < (gate.ofClient w a run).length) :
    ∃ entry ∈ gate.judged run, entry.2 ≠ .allowed ∧ gate.client entry.1 = a := by
  by_contra hnone
  push Not at hnone
  have hcount : (gate.allowedOf w a run).map Prod.fst = gate.ofClient w a run := by
    calc (gate.allowedOf w a run).map Prod.fst
        = ((gate.judged run).filter ((fun r => decide (gate.client r = a ∧ gate.window r = w)) ∘
            Prod.fst)).map Prod.fst := by
          refine congrArg _ (List.filter_congr fun entry hentry => decide_eq_decide.mpr ?_)
          constructor
          · rintro ⟨-, hw, ha⟩
            exact ⟨ha, hw⟩
          · rintro ⟨ha, hw⟩
            exact ⟨by_contra fun hblocked => hnone entry hentry hblocked ha, hw, ha⟩
      _ = gate.ofClient w a run := by
          rw [← List.filter_map, map_fst_judged, Gate.ofClient, Gate.inWindow, List.filter_filter]
          simp
  have hle : (gate.allowedOf w a run).length ≤ gate.clientLimit := length_allowedOf_le w a run
  rw [← hcount, List.length_map] at h
  omega

/-- After a window is full all its requests are blocked. -/
theorem not_allowed_of_full (hfull : gate.globalLimit ≤ (gate.inWindow w before).length)
    (hw : ∀ r ∈ run, gate.window r = w) :
    ∀ entry ∈ gate.judgedFrom before run, entry.2 ≠ .allowed := by
  induction run generalizing before with
  | nil => simp [Gate.judgedFrom]
  | cons r run ih =>
      intro entry hentry
      have hr : gate.window r = w := hw r List.mem_cons_self
      rcases List.mem_cons.mp hentry with rfl | hentry
      · intro hallowed
        have hall := (verdict_allowed_iff.mp hallowed).1
        rw [hr] at hall
        omega
      · refine ih ?_ (fun r hr => hw r (List.mem_cons_of_mem _ hr)) entry hentry
        rw [inWindow_concat, if_pos hr, List.length_append]
        omega

instance (b : κ) : DecidablePred (gate.Removable b) := fun _ => inferInstanceAs (Decidable (_ ∧ _))

/-- What remains when all blocked requests of the others are removed. -/
def Gate.without (gate : Gate ρ ω κ) (b : κ) (run : List ρ) : List ρ :=
  ((gate.judged run).filter fun entry => ¬ gate.Removable b entry).map Prod.fst

/-- If another client was over its limit among the first requests of a full window, and the
client has none after these, removals make room. -/
theorem length_without_lt (hab : a ≠ b)
    (hover : gate.clientLimit < (gate.ofClient w a (gate.first w run)).length)
    (hbeyond : ∀ r ∈ gate.beyond w run, gate.client r ≠ b) :
    (gate.inWindow w (gate.without b run)).length < gate.globalLimit := by
  have hw : ∀ r ∈ gate.inWindow w run, gate.window r = w := fun r hr =>
    of_decide_eq_true (List.mem_filter.mp hr).2
  have hwithout : (gate.inWindow w (gate.without b run)).length =
      ((gate.judged (gate.first w run ++ gate.beyond w run)).filter fun entry =>
        ¬ gate.Removable b entry).length := by
    rw [Gate.first, Gate.beyond, List.take_append_drop, ← judged_inWindow, List.filter_comm]
    simp only [Gate.inWindow, Gate.without, List.filter_map, List.length_map]
    rfl
  rw [hwithout, judged_append, List.filter_append, List.length_append]
  have hrest : (gate.judgedFrom (gate.first w run) (gate.beyond w run)).filter
      (fun entry => ¬ gate.Removable b entry) = [] := by
    refine List.filter_eq_nil_iff.mpr fun entry hentry => ?_
    have hmem : entry.1 ∈ gate.beyond w run := by
      have hrequests : (gate.judgedFrom (gate.first w run) (gate.beyond w run)).map Prod.fst =
          gate.beyond w run := judgedFrom_fst _ _
      rw [← hrequests]
      exact List.mem_map_of_mem hentry
    have hfull : gate.globalLimit ≤ (gate.inWindow w (gate.first w run)).length := by
      have hpos := List.length_pos_of_mem hmem
      rw [Gate.beyond, List.length_drop] at hpos
      have hfirst : gate.inWindow w (gate.first w run) = gate.first w run :=
        List.filter_eq_self.mpr fun r hr => decide_eq_true (hw r (List.mem_of_mem_take hr))
      rw [hfirst, Gate.first, List.length_take_of_le (by omega)]
    have hblocked := not_allowed_of_full hfull (fun r hr => hw r (List.mem_of_mem_drop hr)) entry
      hentry
    simpa using ⟨hblocked, hbeyond _ hmem⟩
  obtain ⟨entry, hentry, hblocked, ha⟩ := exists_blocked hover
  have hfewer : ((gate.judged (gate.first w run)).filter fun entry =>
      ¬ gate.Removable b entry).length < (gate.judged (gate.first w run)).length := by
    have hremovable : gate.Removable b entry := ⟨hblocked, ha ▸ hab⟩
    exact List.length_filter_lt_length_iff_exists.mpr ⟨entry, hentry, by simp [hremovable]⟩
  have hlength : (gate.judged (gate.first w run)).length ≤ gate.globalLimit := by
    rw [← List.length_map Prod.fst, map_fst_judged]
    exact List.length_take_le _ _
  rw [hrest, List.length_nil]
  omega

/-- The first request of a client among the late ones of a window, at its place in the run. -/
theorem exists_first_beyond (h : ∃ r ∈ gate.beyond w run, gate.client r = b) :
    ∃ before r after, run = before ++ r :: after ∧ gate.window r = w ∧ gate.client r = b ∧
      gate.globalLimit ≤ (gate.inWindow w before).length ∧
      ∀ late ∈ gate.beyond w before, gate.client late ≠ b := by
  obtain ⟨r₀, hr₀, hb₀⟩ := h
  obtain ⟨r, early, late, hnone, hb, hbeyond, -⟩ :=
    List.exists_of_eraseP (p := fun r => gate.client r = b) hr₀ (decide_eq_true hb₀)
  have hsplit : gate.inWindow w run = (gate.first w run ++ early) ++ r :: late := by
    rw [List.append_assoc, ← hbeyond]
    exact (List.take_append_drop _ _).symm
  obtain ⟨xs, ys, rfl, hxs, hys⟩ := List.filter_eq_append_iff.mp hsplit
  obtain ⟨zs, after, rfl, hzs, hw, -⟩ := List.filter_eq_cons_iff.mp hys
  have hbefore : gate.inWindow w (xs ++ zs) = gate.first w (xs ++ (zs ++ r :: after)) ++ early := by
    rw [Gate.inWindow, List.filter_append, hxs, List.filter_eq_nil_iff.mpr hzs, List.append_nil]
  have hfirst : (gate.first w (xs ++ (zs ++ r :: after))).length = gate.globalLimit := by
    have hpos := List.length_pos_of_mem hr₀
    rw [Gate.beyond, List.length_drop] at hpos
    exact List.length_take_of_le (by omega)
  refine ⟨xs ++ zs, r, after, (List.append_assoc _ _ _).symm, of_decide_eq_true hw,
    of_decide_eq_true hb, ?_, fun r hr => ?_⟩
  · rw [hbefore, List.length_append, hfirst]
    omega
  · rw [Gate.beyond, hbefore, ← hfirst, List.drop_left] at hr
    simpa using hnone r hr

/-- **When removals change nothing.**  The decisions of a client are the same without blocked
requests of the others exactly when nobody takes room from it. -/
theorem unaffected_iff : (∀ kept, Removes (gate.Removable b) Prod.fst (gate.judged run) kept →
    gate.decisionsOf b kept = gate.decisionsOf b run) ↔ gate.NoRoomTaken b run := by
  constructor
  · intro h w a hab hover hlate
    by_contra hroom
    obtain ⟨before, r, after, rfl, hw, hb, hfull, hnone⟩ := exists_first_beyond hlate
    rw [first_append_of_full hfull] at hover hroom
    have hkept : Removes (gate.Removable b) Prod.fst (gate.judged (before ++ r :: after))
        (gate.without b before ++ r :: after) := by
      rw [judged_append]
      refine removes_append.mpr ⟨_, _, rfl, removes_filter _, ?_⟩
      have hrest := removes_refl (gate.Removable b) Prod.fst (gate.judgedFrom before (r :: after))
      rwa [judgedFrom_fst] at hrest
    have hsame := h _ hkept
    rw [decisionsOf_append, decisionsOf_append, Gate.judgedFrom, Gate.judgedFrom,
      List.filter_cons_of_pos (by simpa using hb), List.filter_cons_of_pos (by simpa using hb),
      List.map_cons, List.map_cons] at hsame
    have hbefore : Removes (gate.Removable b) Prod.fst (gate.judged before)
        (gate.without b before) := removes_filter _
    have hlength : (gate.decisionsOf b (gate.without b before)).length =
        (gate.decisionsOf b before).length := by
      rw [length_decisionsOf, length_decisionsOf, hbefore.requestsOf]
    have hdecision := (List.cons.inj (List.append_inj_right hsame hlength)).1
    have hverdicts := decide_eq_decide.mp (Prod.mk.inj hdecision).2
    rw [verdict_allowed_iff, verdict_allowed_iff, hw, hb, hbefore.ofClient] at hverdicts
    have hlt := length_without_lt hab hover hnone
    have hown : (gate.ofClient w b before).length =
        (gate.ofClient w b (gate.first w before)).length := by
      have hlate : gate.ofClient w b (gate.beyond w before) = [] :=
        List.filter_eq_nil_iff.mpr fun late hmem => by
          simpa using hnone late (List.mem_filter.mp hmem).1
      rw [← ofClient_inWindow, ← List.take_append_drop gate.globalLimit (gate.inWindow w before),
        ofClient_append]
      change (_ ++ gate.ofClient w b (gate.beyond w before)).length = _
      rw [hlate, List.append_nil]
      rfl
    omega
  · intro hroom kept h
    exact h.decisionsOf hroom

end Gate

end FixedWindow
