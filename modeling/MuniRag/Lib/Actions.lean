import Mathlib.Logic.Basic
import Mathlib.Tactic.SplitIfs

/-!
# Actions that may fail

An action reads and changes a state and then returns a value or fails.  A failure does
not undo what was done before it, so the state it leaves matters as well.  `Triple P x Q E`
is total correctness: from a state in `P` the action `x` returns into `Q` or fails into
`E`.  The rules follow the ways to compose actions; two triples of one action meet
(`Triple.and`) and a fact about the state before can be carried along (`Triple.frame`).
-/

/-- An action on a state `σ` that returns an `α` or fails with an `ε`. -/
def Fallible (ε σ α : Type) : Type := σ → Except ε α × σ

namespace Fallible

variable {ε σ α β : Type}

instance : Monad (Fallible ε σ) where
  pure a := fun s => (.ok a, s)
  bind x f := fun s =>
    match x s with
    | (.ok a, s') => f a s'
    | (.error e, s') => (.error e, s')

def fail (e : ε) : Fallible ε σ α := fun s => (.error e, s)

/-- What a state says, with the state left as the function says. -/
def readModify (f : σ → α × σ) : Fallible ε σ α := fun s => (.ok (f s).1, (f s).2)

def get : Fallible ε σ σ := readModify fun s => (s, s)

def modify (f : σ → σ) : Fallible ε σ Unit := readModify fun s => ((), f s)

/-- A call of a pure function that may fail. -/
def lift (x : Except ε α) : Fallible ε σ α := fun s => (x, s)

/-- `try … catch`, the failure being handled in the state it left. -/
def recover (x : Fallible ε σ α) (handle : ε → Fallible ε σ α) : Fallible ε σ α := fun s =>
  match x s with
  | (.ok a, s') => (.ok a, s')
  | (.error e, s') => handle e s'

/-- The state that the action leaves. -/
def stateAfter (x : Fallible ε σ α) (s : σ) : σ := (x s).2

/-! ## Runs, step by step -/

section Run

variable {x : Fallible ε σ α} {s s' : σ}

theorem bind_of_ok {a : α} (h : x s = (.ok a, s')) (f : α → Fallible ε σ β) :
    (x >>= f) s = f a s' := by
  change (match x s with
    | (.ok a, s') => f a s'
    | (.error e, s') => (.error e, s')) = f a s'
  rw [h]

theorem bind_of_error {e : ε} (h : x s = (.error e, s')) (f : α → Fallible ε σ β) :
    (x >>= f) s = (.error e, s') := by
  change (match x s with
    | (.ok a, s') => f a s'
    | (.error e, s') => (.error e, s')) = (.error e, s')
  rw [h]

theorem recover_of_ok {a : α} (h : x s = (.ok a, s')) (handle : ε → Fallible ε σ α) :
    recover x handle s = (.ok a, s') := by
  rw [recover, h]

theorem recover_of_error {e : ε} (h : x s = (.error e, s')) (handle : ε → Fallible ε σ α) :
    recover x handle s = handle e s' := by
  rw [recover, h]

theorem lift_of_ok {y : Except ε α} {a : α} (h : y = .ok a) :
    (lift y : Fallible ε σ α) s = (.ok a, s) := by
  rw [lift, h]

theorem lift_of_error {y : Except ε α} {e : ε} (h : y = .error e) :
    (lift y : Fallible ε σ α) s = (.error e, s) := by
  rw [lift, h]

/-- A sequence returns where its first action does, and the second one after it. -/
theorem bind_ok_iff {f : α → Fallible ε σ β} {b : β} :
    (x >>= f) s = (.ok b, s') ↔ ∃ a s₁, x s = (.ok a, s₁) ∧ f a s₁ = (.ok b, s') := by
  have hbind : (x >>= f) s = match x s with
      | (.ok a, s') => f a s'
      | (.error e, s') => (.error e, s') := rfl
  rw [hbind]
  match x s with
  | (.ok a, s₁) =>
      constructor
      · exact fun h => ⟨a, s₁, rfl, h⟩
      · rintro ⟨a', s', hsame, h⟩
        cases hsame
        exact h
  | (.error e, s₁) => simp

theorem lift_ok_iff {y : Except ε α} {a : α} :
    (lift y : Fallible ε σ α) s = (.ok a, s') ↔ y = .ok a ∧ s' = s := by
  simp [lift, eq_comm]

theorem bind_bind {γ : Type} (x : Fallible ε σ α) (f : α → Fallible ε σ β)
    (g : β → Fallible ε σ γ) : (x >>= f) >>= g = x >>= fun a => f a >>= g := by
  funext s
  match hx : x s with
  | (.error e, s') => rw [bind_of_error hx, bind_of_error (bind_of_error hx f)]
  | (.ok a, s') =>
      rw [bind_of_ok hx]
      match hf : f a s' with
      | (.ok b, s'') => rw [bind_of_ok ((bind_of_ok hx f).trans hf), bind_of_ok hf]
      | (.error e, s'') => rw [bind_of_error ((bind_of_ok hx f).trans hf), bind_of_error hf]

end Run

/-! ## Pre- and postconditions -/

/-- What `Q` and `E` say of an outcome. -/
def Outcome (Q : α → σ → Prop) (E : ε → σ → Prop) : Except ε α × σ → Prop
  | (.ok a, s) => Q a s
  | (.error e, s) => E e s

def Triple (P : σ → Prop) (x : Fallible ε σ α) (Q : α → σ → Prop) (E : ε → σ → Prop) : Prop :=
  ∀ s, P s → Outcome Q E (x s)

variable {P P' : σ → Prop} {x : Fallible ε σ α} {Q Q' : α → σ → Prop} {E E' : ε → σ → Prop}

theorem Triple.consequence (h : Triple P x Q E) (hpre : ∀ s, P' s → P s)
    (hpost : ∀ a s, Q a s → Q' a s) (hfail : ∀ e s, E e s → E' e s) : Triple P' x Q' E' := by
  intro s hs
  have hout := h s (hpre s hs)
  match hx : x s with
  | (.ok a, s') =>
      rw [hx] at hout
      exact hpost a s' hout
  | (.error e, s') =>
      rw [hx] at hout
      exact hfail e s' hout

theorem Triple.and {P₁ P₂ : σ → Prop} {Q₁ Q₂ : α → σ → Prop} {E₁ E₂ : ε → σ → Prop}
    (h₁ : Triple P₁ x Q₁ E₁) (h₂ : Triple P₂ x Q₂ E₂) :
    Triple (fun s => P₁ s ∧ P₂ s) x (fun a s => Q₁ a s ∧ Q₂ a s) fun e s => E₁ e s ∧ E₂ e s := by
  intro s hs
  have hout₁ := h₁ s hs.1
  have hout₂ := h₂ s hs.2
  match hx : x s with
  | (.ok a, s') =>
      rw [hx] at hout₁ hout₂
      exact ⟨hout₁, hout₂⟩
  | (.error e, s') =>
      rw [hx] at hout₁ hout₂
      exact ⟨hout₁, hout₂⟩

/-- A fact that does not depend on the state is known throughout. -/
theorem triple_of_fact {c : Prop} (h : c → Triple P x Q E) :
    Triple (fun s => P s ∧ c) x Q E := fun s hs => h hs.2 s hs.1

theorem triple_exists {ι : Type} {P : ι → σ → Prop} (h : ∀ i, Triple (P i) x Q E) :
    Triple (fun s => ∃ i, P i s) x Q E := fun s ⟨i, hs⟩ => h i s hs

theorem triple_pure {a : α} : Triple (Q a) (pure a : Fallible ε σ α) Q E := fun _ hs => hs

theorem triple_fail {e : ε} : Triple (E e) (fail e : Fallible ε σ α) Q E := fun _ hs => hs

theorem triple_readModify {f : σ → α × σ} :
    Triple (fun s => Q (f s).1 (f s).2) (readModify f : Fallible ε σ α) Q E := fun _ hs => hs

theorem triple_bind {f : α → Fallible ε σ β} {R : β → σ → Prop}
    (hx : Triple P x Q E) (hf : ∀ a, Triple (Q a) (f a) R E) : Triple P (x >>= f) R E := by
  intro s hs
  have hout := hx s hs
  have hbind : (x >>= f) s = match x s with
      | (.ok a, s') => f a s'
      | (.error e, s') => (.error e, s') := rfl
  rw [hbind]
  match hxs : x s with
  | (.ok a, s') =>
      rw [hxs] at hout
      exact hf a s' hout
  | (.error e, s') =>
      rw [hxs] at hout
      exact hout

theorem triple_recover {handle : ε → Fallible ε σ α} {E₁ : ε → σ → Prop}
    (hx : Triple P x Q E₁) (hhandle : ∀ e, Triple (E₁ e) (handle e) Q E) :
    Triple P (recover x handle) Q E := by
  intro s hs
  have hout := hx s hs
  unfold recover
  match hxs : x s with
  | (.ok a, s') =>
      rw [hxs] at hout
      exact hout
  | (.error e, s') =>
      rw [hxs] at hout
      exact hhandle e s' hout

theorem triple_lift {y : Except ε α} :
    Triple P (lift y : Fallible ε σ α) (fun a s => P s ∧ y = .ok a) fun e s =>
      P s ∧ y = .error e := by
  intro s hs
  cases y with
  | ok a => exact ⟨hs, rfl⟩
  | error e => exact ⟨hs, rfl⟩

theorem triple_ite {c : Prop} [Decidable c] {y : Fallible ε σ α}
    (hthen : c → Triple P x Q E) (helse : ¬ c → Triple P y Q E) :
    Triple P (if c then x else y) Q E := by
  by_cases hc : c
  · rw [if_pos hc]
    exact hthen hc
  · rw [if_neg hc]
    exact helse hc

/-- What a triple says of a run that returned. -/
theorem Triple.ok (h : Triple P x Q E) {s s' : σ} {a : α} (hs : P s) (hx : x s = (.ok a, s')) :
    Q a s' := by
  have hout := h s hs
  rw [hx] at hout
  exact hout

/-- What a triple says of a run that failed. -/
theorem Triple.error (h : Triple P x Q E) {s s' : σ} {e : ε} (hs : P s)
    (hx : x s = (.error e, s')) : E e s' := by
  have hout := h s hs
  rw [hx] at hout
  exact hout

/-! ## What every outcome keeps -/

/-- The action leads from a state to a related one, whether it returns or fails. -/
def Moves (r : σ → σ → Prop) (x : Fallible ε σ α) : Prop := ∀ s, r s (stateAfter x s)

section Moves

variable {r : σ → σ → Prop}

theorem moves_pure (hrefl : ∀ s, r s s) (a : α) : Moves r (pure a : Fallible ε σ α) :=
  fun s => hrefl s

theorem moves_fail (hrefl : ∀ s, r s s) (e : ε) : Moves r (fail e : Fallible ε σ α) :=
  fun s => hrefl s

theorem moves_lift (hrefl : ∀ s, r s s) (y : Except ε α) : Moves r (lift y : Fallible ε σ α) :=
  fun s => hrefl s

theorem moves_get (hrefl : ∀ s, r s s) : Moves r (get : Fallible ε σ σ) := fun s => hrefl s

theorem moves_readModify {f : σ → α × σ} (h : ∀ s, r s (f s).2) :
    Moves r (readModify f : Fallible ε σ α) := h

/-- In sequence the two moves compose; the second one happens if the first returns. -/
theorem moves_bind {r₁ r₂ : σ → σ → Prop} {f : α → Fallible ε σ β} (hx : Moves r₁ x)
    (hf : ∀ a, Moves r₂ (f a)) (hstop : ∀ s s', r₁ s s' → r s s')
    (htrans : ∀ s s' s'', r₁ s s' → r₂ s' s'' → r s s'') : Moves r (x >>= f) := by
  intro s
  have hfirst := hx s
  unfold stateAfter at hfirst ⊢
  have hbind : (x >>= f) s = match x s with
      | (.ok a, s') => f a s'
      | (.error e, s') => (.error e, s') := rfl
  rw [hbind]
  match hxs : x s with
  | (.ok a, s') =>
      rw [hxs] at hfirst
      exact htrans s s' _ hfirst (hf a s')
  | (.error e, s') =>
      rw [hxs] at hfirst
      exact hstop s s' hfirst

theorem moves_recover {r₁ r₂ : σ → σ → Prop} {handle : ε → Fallible ε σ α} (hx : Moves r₁ x)
    (hhandle : ∀ e, Moves r₂ (handle e)) (hstop : ∀ s s', r₁ s s' → r s s')
    (htrans : ∀ s s' s'', r₁ s s' → r₂ s' s'' → r s s'') : Moves r (recover x handle) := by
  intro s
  have hfirst := hx s
  unfold stateAfter at hfirst ⊢
  unfold recover
  match hxs : x s with
  | (.ok a, s') =>
      rw [hxs] at hfirst
      exact hstop s s' hfirst
  | (.error e, s') =>
      rw [hxs] at hfirst
      exact htrans s s' _ hfirst (hhandle e s')

/-! ## Actions that change nothing -/

/-- The action leaves every state as it is. -/
def Steady (x : Fallible ε σ α) : Prop := ∀ s, (x s).2 = s

theorem steady_pure (a : α) : Steady (pure a : Fallible ε σ α) := fun _ => rfl

theorem steady_fail (e : ε) : Steady (fail e : Fallible ε σ α) := fun _ => rfl

theorem steady_lift (y : Except ε α) : Steady (lift y : Fallible ε σ α) := fun _ => rfl

theorem steady_bind {f : α → Fallible ε σ β} (hx : Steady x) (hf : ∀ a, Steady (f a)) :
    Steady (x >>= f) := by
  intro s
  have hfirst := hx s
  have hbind : (x >>= f) s = match x s with
      | (.ok a, s') => f a s'
      | (.error e, s') => (.error e, s') := rfl
  rw [hbind]
  match hxs : x s with
  | (.ok a, s') =>
      rw [hxs] at hfirst
      exact (hf a s').trans hfirst
  | (.error e, s') =>
      rw [hxs] at hfirst
      exact hfirst

theorem steady_ite {c : Prop} [Decidable c] {y : Fallible ε σ α} (hthen : Steady x)
    (helse : Steady y) : Steady (if c then x else y) := by
  split_ifs
  · exact hthen
  · exact helse

/-- What is left of a recovered action after its first part. -/
theorem move_recover {handle : ε → Fallible ε σ α} (hrefl : ∀ s, r s s)
    (hhandle : ∀ e, Moves r (handle e)) (s : σ) :
    r (stateAfter x s) (stateAfter (recover x handle) s) := by
  unfold stateAfter recover
  match x s with
  | (.ok a, s') => exact hrefl s'
  | (.error e, s') => exact hhandle e s'

/-- A fact that the moves preserve may be carried across the action. -/
theorem Triple.carry {R : σ → Prop} (h : Triple P x Q E) (hmoves : Moves r x)
    (hR : ∀ s s', r s s' → R s → R s') :
    Triple (fun s => P s ∧ R s) x (fun a s => Q a s ∧ R s) fun e s => E e s ∧ R s := by
  intro s hs
  have hout := h s hs.1
  have hmove := hmoves s
  unfold stateAfter at hmove
  match hxs : x s with
  | (.ok a, s') =>
      rw [hxs] at hout hmove
      exact ⟨hout, hR s s' hmove hs.2⟩
  | (.error e, s') =>
      rw [hxs] at hout hmove
      exact ⟨hout, hR s s' hmove hs.2⟩

end Moves

/-- What a triple says of the state after the action, where both outcomes agree. -/
theorem Triple.stateAfter {R : σ → Prop} (h : Triple P x (fun _ => R) fun _ => R) {s : σ}
    (hs : P s) : R (stateAfter x s) := by
  have hout := h s hs
  unfold Fallible.stateAfter
  match hx : x s with
  | (.ok a, s') =>
      rw [hx] at hout
      exact hout
  | (.error e, s') =>
      rw [hx] at hout
      exact hout

end Fallible
