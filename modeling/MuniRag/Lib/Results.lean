import Mathlib.Data.List.Forall2

/-!
# Results of a checked call

A call that may refuse is an `Except`: `require` is one check of such a call,
and `settle` is what a transaction makes of the answer, the new state when the
call returns and the old state when it throws.  The two inversion lemmas
`then_ok` and `require_ok` take a successful call apart into its checks,
one after the other, without unfolding any of them.
-/

namespace Results

universe u

variable {ε σ : Type*} {α β : Type u}

/-- One check of a call: go on when `c` holds, refuse with `e` otherwise. -/
def require (c : Prop) [Decidable c] (e : ε) : Except ε Unit :=
  if c then .ok () else .error e

/-- The value of an optional lookup, or a refusal. -/
def orRefuse (x : Option α) (e : ε) : Except ε α :=
  match x with
  | some a => .ok a
  | none => .error e

/-- The state a transaction leaves behind: a refused call is rolled back. -/
def settle (s : σ) (answer : Except ε σ) : σ :=
  match answer with
  | .ok s' => s'
  | .error _ => s

/-- A sequence of two calls returns `b` when the first returns something from
which the second returns `b`. -/
theorem then_ok {first : Except ε α} {rest : α → Except ε β} {b : β} :
    (first >>= rest) = .ok b ↔ ∃ a, first = .ok a ∧ rest a = .ok b := by
  cases first <;> simp [Bind.bind, Except.bind]

theorem require_ok {c : Prop} [Decidable c] {e : ε} {done : Unit} :
    require c e = .ok done ↔ c := by
  by_cases h : c <;> simp [require, h]

theorem orRefuse_ok {x : Option α} {e : ε} {a : α} :
    orRefuse x e = .ok a ↔ x = some a := by
  cases x <;> simp [orRefuse]

theorem return_ok {a b : α} : (pure a : Except ε α) = .ok b ↔ a = b := by
  simp [Pure.pure, Except.pure]

theorem throw_not_ok {e : ε} {b : α} : (throw e : Except ε α) ≠ .ok b := by
  simp [throw, throwThe, MonadExceptOf.throw]

@[simp] theorem settle_ok (s s' : σ) : settle s (.ok s' : Except ε σ) = s' := rfl

@[simp] theorem settle_error (s : σ) (e : ε) : settle s (.error e) = s := rfl

/-- What a transaction leaves is the old state or the state of a call that
returned. -/
theorem settle_cases (s : σ) (answer : Except ε σ) :
    settle s answer = s ∨ answer = .ok (settle s answer) := by
  cases answer with
  | error e => exact Or.inl rfl
  | ok s' => exact Or.inr rfl

/-- A property kept by every call that returns is kept by every transaction. -/
theorem settle_keeps {P : σ → Prop} {s : σ} {answer : Except ε σ} (hs : P s)
    (hok : ∀ s', answer = .ok s' → P s') : P (settle s answer) := by
  cases answer with
  | error e => exact hs
  | ok s' => exact hok s' rfl

/-- A check of every element passes when each passes. -/
theorem forM_ok {γ : Type*} {f : γ → Except ε PUnit.{u + 1}} {xs : List γ} {done : PUnit.{u + 1}} :
    xs.forM f = .ok done ↔ ∀ x ∈ xs, f x = .ok ⟨⟩ := by
  rw [List.forM_eq_forM]
  induction xs with
  | nil => simp [Pure.pure, Except.pure]
  | cons x xs ih =>
      rw [List.forM_cons, then_ok, List.forall_mem_cons, ← ih]
      exact ⟨fun ⟨_, hx, hxs⟩ => ⟨hx, hxs⟩, fun ⟨hx, hxs⟩ => ⟨⟨⟩, hx, hxs⟩⟩

/-- A call on every element returns what the calls return. -/
theorem mapM_ok {γ : Type*} {f : γ → Except ε β} {xs : List γ} {ys : List β} :
    xs.mapM f = .ok ys ↔ List.Forall₂ (fun x y => f x = .ok y) xs ys := by
  induction xs generalizing ys with
  | nil => simp [Pure.pure, Except.pure, eq_comm]
  | cons x xs ih =>
      rw [List.mapM_cons, then_ok, List.forall₂_cons_left_iff]
      constructor
      · rintro ⟨y, hy, h⟩
        obtain ⟨rest, hrest, hys⟩ := then_ok.mp h
        exact ⟨y, rest, hy, ih.mp hrest, (return_ok.mp hys).symm⟩
      · rintro ⟨y, rest, hy, hrest, rfl⟩
        exact ⟨y, hy, then_ok.mpr ⟨rest, ih.mpr hrest, return_ok.mpr rfl⟩⟩

/-- What such a call returns comes from one of the elements. -/
theorem exists_of_mapM_ok {γ : Type*} {f : γ → Except ε β} {xs : List γ} {ys : List β}
    (h : xs.mapM f = .ok ys) {y : β} (hy : y ∈ ys) : ∃ x ∈ xs, f x = .ok y := by
  have hall := mapM_ok.mp h
  clear h
  induction hall with
  | nil => exact absurd hy List.not_mem_nil
  | @cons x first xs ys hfirst _ ih =>
      rcases List.mem_cons.mp hy with rfl | hy
      · exact ⟨x, List.mem_cons_self, hfirst⟩
      · obtain ⟨x, hx, hfx⟩ := ih hy
        exact ⟨x, List.mem_cons_of_mem _ hx, hfx⟩

/-! ## Refusals -/

/-- Every refusal of the call has the property. -/
def RefusesOnly (P : ε → Prop) (answer : Except ε α) : Prop := ∀ e, answer = .error e → P e

namespace RefusesOnly

variable {P : ε → Prop} {first : Except ε α} {rest : α → Except ε β} {e : ε}

protected theorem bind (hfirst : RefusesOnly P first) (hrest : ∀ a, RefusesOnly P (rest a)) :
    RefusesOnly P (first >>= rest) := by
  intro e he
  cases first with
  | error e' =>
      have hsame : (Except.error e' : Except ε β) = .error e := he
      exact Except.error.inj hsame ▸ hfirst e' rfl
  | ok a => exact hrest a e he

theorem of_require {c : Prop} [Decidable c] (he : P e) : RefusesOnly P (require c e) := by
  intro e' he'
  by_cases hc : c
  · simp [require, hc] at he'
  · obtain rfl : e = e' := by simpa [require, hc] using he'
    exact he

theorem of_orRefuse {x : Option α} (he : P e) : RefusesOnly P (orRefuse x e) := by
  intro e' he'
  cases x with
  | some a => cases he'
  | none =>
      obtain rfl : e = e' := by simpa [orRefuse] using he'
      exact he

theorem of_pure (a : α) : RefusesOnly P (pure a) := fun _ he => nomatch he

end RefusesOnly

end Results
