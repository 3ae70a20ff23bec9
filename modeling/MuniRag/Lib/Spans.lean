import Mathlib.Data.List.Pairwise
import Mathlib.Tactic

/-!
# Spans in order

A span holds the positions from its start up to its stop.  In a list of spans whose
starts and stops never go down, a span has a position that no earlier one holds exactly
when its stop lies behind theirs.
-/

/-- The positions from `start` up to, and without, `stop`. -/
structure Span where
  start : Nat
  stop : Nat
  nonempty : start < stop

namespace Span

def Holds (span : Span) (i : Nat) : Prop := span.start ≤ i ∧ i < span.stop

/-- Neither end lies before the one of the earlier span. -/
def Follows (earlier later : Span) : Prop := earlier.start ≤ later.start ∧ earlier.stop ≤ later.stop

/-- Each span has a position that none before it has. -/
def Fresh (spans : List Span) : Prop :=
  ∀ n (h : n < spans.length), ∃ i, spans[n].Holds i ∧ ∀ earlier ∈ spans.take n, ¬ earlier.Holds i

variable {spans : List Span} {earlier later : Span} {i : Nat}

/-- What a span holds and one before it does not lies behind the earlier one. -/
theorem Follows.not_holds (h : earlier.Follows later) (hlater : later.Holds i)
    (hnot : ¬ earlier.Holds i) : earlier.stop < later.stop := by
  unfold Follows Holds at *
  omega

theorem last_not_held (h : earlier.stop < later.stop) : ¬ earlier.Holds (later.stop - 1) := by
  unfold Holds
  omega

theorem holds_last (span : Span) : span.Holds (span.stop - 1) := by
  have hnonempty := span.nonempty
  unfold Holds
  omega

/-- **Spans in order are fresh exactly when their stops go up.** -/
theorem fresh_iff (hfollows : spans.Pairwise Follows) :
    Fresh spans ↔ spans.Pairwise fun earlier later => earlier.stop < later.stop := by
  rw [List.pairwise_iff_getElem] at hfollows ⊢
  constructor
  · intro hfresh m n hm hn hmn
    obtain ⟨i, hholds, hnew⟩ := hfresh n hn
    refine (hfollows m n hm hn hmn).not_holds hholds (hnew _ ?_)
    exact List.mem_take_iff_getElem.mpr ⟨m, by omega, rfl⟩
  · intro hstops n hn
    refine ⟨spans[n].stop - 1, holds_last _, fun earlier hearlier => ?_⟩
    obtain ⟨m, hm, rfl⟩ := List.mem_take_iff_getElem.mp hearlier
    exact last_not_held (hstops m n (by omega) hn (by omega))

end Span
