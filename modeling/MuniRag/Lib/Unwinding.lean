import MuniRag.Lib.Runs

/-!
# Unwinding

A party that acts by some of the labels of a run, and sees some of the state, cannot tell the
run from one in which the others do nothing: it suffices to look at single steps.
-/

namespace Runs

variable {σ α : Type*} {step : σ → α → σ}

/-- **Unwinding.**  When the steps of others keep what is seen, and a step of one's own does the
same to two states that look alike, or leaves the first as it looked, what is seen of a run is
seen of a run of one's own steps. -/
theorem exists_own_run {Inv : σ → Prop} {Alike : σ → σ → Prop} {own : α → Bool}
    (hkeep : ∀ s a, Inv s → Inv (step s a))
    (hother : ∀ s s' a, Inv s → Inv s' → own a = false → Alike s s' → Alike (step s a) s')
    (hown : ∀ s s' a, Inv s → Inv s' → own a = true → Alike s s' →
      Alike (step s a) (step s' a) ∨ Alike (step s a) s')
    {s s' : σ} (hs : Inv s) (hs' : Inv s') (halike : Alike s s') (as : List α) :
    ∃ bs, bs.Sublist (as.filter own) ∧ Inv (run step s' bs) ∧
      Alike (run step s as) (run step s' bs) := by
  induction as generalizing s s' with
  | nil => exact ⟨[], List.Sublist.refl _, hs', halike⟩
  | cons a as ih =>
      cases ha : own a with
      | false =>
          rw [List.filter_cons_of_neg (by simp [ha])]
          exact ih (hkeep s a hs) hs' (hother s s' a hs hs' ha halike)
      | true =>
          rw [List.filter_cons_of_pos ha]
          rcases hown s s' a hs hs' ha halike with hsame | hstill
          · obtain ⟨bs, hsub, hrun⟩ := ih (hkeep s a hs) (hkeep s' a hs') hsame
            exact ⟨a :: bs, hsub.cons_cons a, hrun⟩
          · obtain ⟨bs, hsub, hrun⟩ := ih (hkeep s a hs) hs' hstill
            exact ⟨bs, hsub.cons a, hrun⟩

end Runs
