import Mathlib.Logic.Relation

/-!
# Acyclic relations

A relation without cycles stays so when edges go and when the new edges all
lead to one point that none leaves.
-/

namespace Acyclic

open Relation

variable {α : Type*} {r s : α → α → Prop} {w : α}

/-- No point is reached from itself by one or more edges. -/
def IsAcyclic (r : α → α → Prop) : Prop := ∀ x, ¬ TransGen r x x

theorem IsAcyclic.mono (h : IsAcyclic r) (hsub : ∀ a b, s a b → r a b) : IsAcyclic s :=
  fun x hx => h x (TransGen.mono hsub x x hx)

/-- A path to a point other than the sink uses no edge to the sink. -/
theorem transGen_of_sink {a b : α} (hsub : ∀ a b, s a b → r a b ∨ b = w) (hsink : ∀ b, ¬ s w b)
    (h : TransGen s a b) (hb : b ≠ w) : TransGen r a b := by
  induction h with
  | single hedge =>
      rcases hsub _ _ hedge with hold | hw
      · exact .single hold
      · exact absurd hw hb
  | @tail c d hpath hedge ih =>
      have hc : c ≠ w := by
        rintro rfl
        exact hsink d hedge
      rcases hsub _ _ hedge with hold | hw
      · exact (ih hc).tail hold
      · exact absurd hw hb

/-- **New edges to a sink close no cycle.** -/
theorem IsAcyclic.of_sink (h : IsAcyclic r) (hsub : ∀ a b, s a b → r a b ∨ b = w)
    (hsink : ∀ b, ¬ s w b) : IsAcyclic s := by
  intro x hx
  by_cases hw : x = w
  · subst hw
    obtain ⟨c, hfirst, _⟩ := TransGen.head'_iff.mp hx
    exact hsink c hfirst
  · exact h x (transGen_of_sink hsub hsink hx hw)

end Acyclic
