import Mathlib.Logic.Basic

/-!
# Runs of a labelled step

A program driven from outside is a total step: the label carries everything
the outside chooses (which call, its arguments, the clock, the fresh names),
and a refused call leaves the state alone.  A run is a list of labels.

Three shapes of law are stated about runs.  `Throughout P` says that `P` holds in
every state the run visits; `EachStep Q` says that `Q` holds of every step the
run takes, from the state it is taken in; `outputs` is what the steps put out, in
order.  The rules at the end decide such a law by a condition on the single
steps: under an invariant that good steps keep, a run obeys the law exactly when
all of its steps are good.
-/

namespace Runs

variable {σ α β κ : Type*} (step : σ → α → σ)

/-- The state after the labels of a run, in order. -/
def run : σ → List α → σ
  | s, [] => s
  | s, a :: as => run (step s a) as

/-- `P` holds in every state visited, the first and the last included. -/
def Throughout (P : σ → Prop) : σ → List α → Prop
  | s, [] => P s
  | s, a :: as => P s ∧ Throughout P (step s a) as

/-- `Q` holds of every step taken. -/
def EachStep (Q : σ → α → Prop) : σ → List α → Prop
  | _, [] => True
  | s, a :: as => Q s a ∧ EachStep Q (step s a) as

instance decidableEachStep {Q : σ → α → Prop} [∀ s a, Decidable (Q s a)] :
    (s : σ) → (as : List α) → Decidable (EachStep step Q s as)
  | _, [] => .isTrue trivial
  | s, a :: as => @instDecidableAnd _ _ inferInstance (decidableEachStep (step s a) as)

/-- What the steps of a run put out, in order. -/
def outputs (out : σ → α → Option β) : σ → List α → List β
  | _, [] => []
  | s, a :: as => (out s a).toList ++ outputs out (step s a) as

/-- `s` is reached from `start` by some run. -/
def Reached (start s : σ) : Prop := ∃ as, run step start as = s

variable {step}

theorem run_append (s : σ) (as bs : List α) :
    run step s (as ++ bs) = run step (run step s as) bs := by
  induction as generalizing s with
  | nil => rfl
  | cons a as ih => exact ih (step s a)

/-- **Invariant rule.**  What holds at the start and is kept by every step
holds at the end of every run. -/
theorem run_invariant (Inv : σ → Prop) (hkeep : ∀ s a, Inv s → Inv (step s a))
    {s : σ} (h : Inv s) (as : List α) : Inv (run step s as) := by
  induction as generalizing s with
  | nil => exact h
  | cons a as ih => exact ih (hkeep s a h)

theorem reached_invariant (Inv : σ → Prop) (hkeep : ∀ s a, Inv s → Inv (step s a))
    {start s : σ} (h : Inv start) (hr : Reached step start s) : Inv s := by
  obtain ⟨as, rfl⟩ := hr
  exact run_invariant Inv hkeep h as

/-- An invariant that only good steps keep survives a run of good steps. -/
theorem run_invariant_of_eachStep {Inv : σ → Prop} {good : σ → α → Prop}
    (hkeep : ∀ s a, Inv s → good s a → Inv (step s a))
    {s : σ} {as : List α} (h : Inv s) (hgood : EachStep step good s as) :
    Inv (run step s as) := by
  induction as generalizing s with
  | nil => exact h
  | cons a as ih => exact ih (hkeep s a h hgood.1) hgood.2

theorem eachStep_append {Q : σ → α → Prop} {s : σ} {as bs : List α} :
    EachStep step Q s (as ++ bs) ↔
      EachStep step Q s as ∧ EachStep step Q (run step s as) bs := by
  induction as generalizing s with
  | nil => simp [EachStep, run]
  | cons a as ih => simp only [List.cons_append, EachStep, run, ih, and_assoc]

/-- A law that good steps obey under the invariant is obeyed by every step of
a run of good steps. -/
theorem eachStep_of_invariant {Inv : σ → Prop} {law good : σ → α → Prop}
    (hkeep : ∀ s a, Inv s → good s a → Inv (step s a))
    (hlaw : ∀ s a, Inv s → good s a → law s a)
    {s : σ} {as : List α} (h : Inv s) (hgood : EachStep step good s as) :
    EachStep step law s as := by
  induction as generalizing s with
  | nil => trivial
  | cons a as ih => exact ⟨hlaw s a h hgood.1, ih (hkeep s a h hgood.1) hgood.2⟩

theorem throughout_end {P : σ → Prop} {s : σ} {as : List α}
    (h : Throughout step P s as) : P (run step s as) := by
  induction as generalizing s with
  | nil => exact h
  | cons a as ih => exact ih h.2

theorem throughout_of_invariant {Inv P : σ → Prop} {good : σ → α → Prop}
    (hkeep : ∀ s a, Inv s → good s a → Inv (step s a)) (hP : ∀ s, Inv s → P s)
    {s : σ} {as : List α} (h : Inv s) (hgood : EachStep step good s as) :
    Throughout step P s as := by
  induction as generalizing s with
  | nil => exact hP s h
  | cons a as ih => exact ⟨hP s h, ih (hkeep s a h hgood.1) hgood.2⟩

/-- **Laws from an invariant.**  When every step keeps the invariant, what the
invariant gives holds in every state and of every step. -/
theorem laws_of_invariant {Inv P : σ → Prop} {law : σ → α → Prop}
    (hkeep : ∀ s a, Inv s → Inv (step s a)) (hP : ∀ s, Inv s → P s)
    (hlaw : ∀ s a, Inv s → law s a) {s : σ} (h : Inv s) (as : List α) :
    Throughout step P s as ∧ EachStep step law s as := by
  induction as generalizing s with
  | nil => exact ⟨hP s h, trivial⟩
  | cons a as ih =>
      obtain ⟨hstates, hsteps⟩ := ih (hkeep s a h)
      exact ⟨⟨hP s h, hstates⟩, hlaw s a h, hsteps⟩

/-- **Exact condition for a law on states.**  When good steps keep the
invariant, the invariant gives the law, and a step that is not good breaks the
law at once, a run obeys the law exactly when all of its steps are good. -/
theorem throughout_iff_eachStep {Inv P : σ → Prop} {good : σ → α → Prop}
    (hkeep : ∀ s a, Inv s → good s a → Inv (step s a)) (hP : ∀ s, Inv s → P s)
    (hbreak : ∀ s a, Inv s → ¬ good s a → ¬ P (step s a))
    {s : σ} (h : Inv s) (as : List α) :
    Throughout step P s as ↔ EachStep step good s as := by
  refine ⟨fun hlaw => ?_, throughout_of_invariant hkeep hP h⟩
  induction as generalizing s with
  | nil => trivial
  | cons a as ih =>
      have hgood : good s a := by
        apply Classical.byContradiction
        intro hbad
        apply hbreak s a h hbad
        cases as with
        | nil => exact hlaw.2
        | cons b bs => exact hlaw.2.1
      exact ⟨hgood, ih (hkeep s a h hgood) hlaw.2⟩

/-- **Exact condition for a law on steps.**  When good steps keep the
invariant and, under the invariant, a step is lawful exactly when it is good,
a run is lawful exactly when all of its steps are good. -/
theorem eachStep_iff_eachStep {Inv : σ → Prop} {law good : σ → α → Prop}
    (hkeep : ∀ s a, Inv s → good s a → Inv (step s a))
    (hlaw : ∀ s a, Inv s → (law s a ↔ good s a))
    {s : σ} (h : Inv s) (as : List α) :
    EachStep step law s as ↔ EachStep step good s as := by
  induction as generalizing s with
  | nil => exact Iff.rfl
  | cons a as ih =>
      simp only [EachStep, hlaw s a h]
      exact and_congr_right fun hgood => ih (hkeep s a h hgood)

/-- Under an invariant that no step breaks, what is put out has a level that is
not below the level of its key before, and it raises that level. -/
theorem outputs_from {Inv : σ → Prop} {out : σ → α → Option (κ × Nat)} {level : σ → κ → Nat}
    (hkeep : ∀ s a, Inv s → Inv (step s a))
    (hlevel : ∀ s a key, Inv s → level s key ≤ level (step s a) key)
    (hout : ∀ s a key n, Inv s → out s a = some (key, n) → level s key ≤ n)
    {s : σ} (h : Inv s) (as : List α) :
    ∀ entry ∈ outputs step out s as, level s entry.1 ≤ entry.2 := by
  induction as generalizing s with
  | nil => exact fun entry hentry => nomatch hentry
  | cons a as ih =>
      intro entry hentry
      rcases List.mem_append.mp hentry with hnow | hlater
      · exact hout s a entry.1 entry.2 h (Option.mem_toList.mp hnow)
      · exact Nat.le_trans (hlevel s a entry.1 h) (ih (hkeep s a h) entry hlater)

/-- **Invariant rule with outputs.**  What relates a state to the outputs so far, and is kept by
every step together with what the step puts out, relates the end of a run to all its outputs. -/
theorem outputs_invariant {out : σ → α → Option β} (Inv : List β → σ → Prop)
    (hkeep : ∀ log s a, Inv log s → Inv (log ++ (out s a).toList) (step s a))
    {log : List β} {s : σ} (h : Inv log s) (as : List α) :
    Inv (log ++ outputs step out s as) (run step s as) := by
  induction as generalizing log s with
  | nil => simpa [outputs, run] using h
  | cons a as ih =>
      rw [outputs, ← List.append_assoc]
      exact ih (hkeep log s a h)

/-- **Each output once.**  When every output raises the level of its key above
itself and no level falls, a run puts nothing out twice. -/
theorem outputs_nodup {Inv : σ → Prop} {out : σ → α → Option (κ × Nat)} {level : σ → κ → Nat}
    (hkeep : ∀ s a, Inv s → Inv (step s a))
    (hlevel : ∀ s a key, Inv s → level s key ≤ level (step s a) key)
    (hout : ∀ s a key n, Inv s → out s a = some (key, n) →
      level s key ≤ n ∧ n < level (step s a) key)
    {s : σ} (h : Inv s) (as : List α) : (outputs step out s as).Nodup := by
  induction as generalizing s with
  | nil => exact List.nodup_nil
  | cons a as ih =>
      have hrest := ih (hkeep s a h)
      rw [outputs]
      cases hnow : out s a with
      | none => simpa using hrest
      | some entry =>
          refine List.nodup_cons.mpr ⟨fun hmem => ?_, hrest⟩
          have hraised := (hout s a entry.1 entry.2 h hnow).2
          have hbelow := outputs_from hkeep hlevel (fun s a key n hs ho => (hout s a key n hs ho).1)
            (hkeep s a h) as entry hmem
          exact absurd hraised (Nat.not_lt.mpr hbelow)

end Runs
