import MuniRag.Lib.Json

/-!
# Well-formed UTF-16

In a well-formed text the two halves of a surrogate pair stand next to each other.  A
window of such a text is well formed exactly when neither of its ends separates a pair
(`wellFormed_window_iff`), and units that are no surrogates change nothing at its ends.
-/

namespace Utf16

open Json (isHighSurrogate isLowSurrogate)

def highAt (text : List UInt16) (i : Nat) : Bool := text[i]?.any isHighSurrogate

def lowAt (text : List UInt16) (i : Nat) : Bool := text[i]?.any isLowSurrogate

/-- Each high surrogate has a low one behind it, and each low one a high one before it. -/
def WellFormed (text : List UInt16) : Prop :=
  lowAt text 0 = false ∧ ∀ i < text.length, highAt text i = lowAt text (i + 1)

/-- No half of a pair. -/
def IsPlain (u : UInt16) : Prop := isHighSurrogate u = false ∧ isLowSurrogate u = false

variable {text before after : List UInt16} {u : UInt16} {i n m : Nat}

@[simp] theorem highAt_of_le (h : text.length ≤ i) : highAt text i = false := by
  simp [highAt, List.getElem?_eq_none h]

@[simp] theorem lowAt_of_le (h : text.length ≤ i) : lowAt text i = false := by
  simp [lowAt, List.getElem?_eq_none h]

theorem wellFormed_nil : WellFormed [] := ⟨rfl, fun i hi => absurd hi (Nat.not_lt_zero i)⟩

/-- The second half of the definition needs no bound. -/
theorem WellFormed.paired (h : WellFormed text) (i : Nat) : highAt text i = lowAt text (i + 1) := by
  by_cases hi : i < text.length
  · exact h.2 i hi
  · rw [highAt_of_le (by omega), lowAt_of_le (by omega)]

@[simp] theorem highAt_cons_zero : highAt (u :: text) 0 = isHighSurrogate u := rfl

@[simp] theorem lowAt_cons_zero : lowAt (u :: text) 0 = isLowSurrogate u := rfl

@[simp] theorem highAt_cons_succ : highAt (u :: text) (i + 1) = highAt text i := rfl

@[simp] theorem lowAt_cons_succ : lowAt (u :: text) (i + 1) = lowAt text i := rfl

/-- The halves fit from the second unit on. -/
def Paired (text : List UInt16) : Prop := ∀ i, highAt text i = lowAt text (i + 1)

theorem wellFormed_iff : WellFormed text ↔ lowAt text 0 = false ∧ Paired text :=
  ⟨fun h => ⟨h.1, h.paired⟩, fun h => ⟨h.1, fun i _ => h.2 i⟩⟩

theorem paired_cons : Paired (u :: text) ↔ isHighSurrogate u = lowAt text 0 ∧ Paired text := by
  constructor
  · intro h
    exact ⟨h 0, fun i => h (i + 1)⟩
  · rintro ⟨hhead, hrest⟩ (_ | i)
    · exact hhead
    · exact hrest i

/-! ## Units that are no surrogates -/

theorem wellFormed_cons_plain (hu : IsPlain u) : WellFormed (u :: text) ↔ WellFormed text := by
  rw [wellFormed_iff, wellFormed_iff, paired_cons, lowAt_cons_zero, hu.1, hu.2]
  constructor
  · rintro ⟨-, hlow, hpaired⟩
    exact ⟨hlow.symm, hpaired⟩
  · rintro ⟨hlow, hpaired⟩
    exact ⟨rfl, hlow.symm, hpaired⟩

theorem wellFormed_plain_append (hbefore : ∀ u ∈ before, IsPlain u) :
    WellFormed (before ++ text) ↔ WellFormed text := by
  induction before with
  | nil => rfl
  | cons u before ih =>
      obtain ⟨hu, hrest⟩ := List.forall_mem_cons.mp hbefore
      rw [List.cons_append, wellFormed_cons_plain hu, ih hrest]

theorem lowAt_append_plain (hafter : ∀ u ∈ after, IsPlain u) (i : Nat) :
    lowAt (text ++ after) i = lowAt text i := by
  by_cases hi : i < text.length
  · rw [lowAt, List.getElem?_append_left hi, lowAt]
  · rw [@lowAt_of_le text i (by omega), lowAt, List.getElem?_append_right (by omega)]
    cases hget : after[i - text.length]? with
    | none => rfl
    | some u => exact (hafter u (List.mem_of_getElem? hget)).2

theorem highAt_append_plain (hafter : ∀ u ∈ after, IsPlain u) (i : Nat) :
    highAt (text ++ after) i = highAt text i := by
  by_cases hi : i < text.length
  · rw [highAt, List.getElem?_append_left hi, highAt]
  · rw [@highAt_of_le text i (by omega), highAt, List.getElem?_append_right (by omega)]
    cases hget : after[i - text.length]? with
    | none => rfl
    | some u => exact (hafter u (List.mem_of_getElem? hget)).1

theorem wellFormed_append_plain (hafter : ∀ u ∈ after, IsPlain u) :
    WellFormed (text ++ after) ↔ WellFormed text := by
  rw [wellFormed_iff, wellFormed_iff, Paired, Paired]
  simp only [lowAt_append_plain hafter, highAt_append_plain hafter]

/-- Two well-formed texts make one. -/
theorem WellFormed.append (hbefore : WellFormed before) (hafter : WellFormed after) :
    WellFormed (before ++ after) := by
  have hpaired : ∀ before : List UInt16, Paired before → Paired (before ++ after) := by
    intro before h
    induction before with
    | nil => exact hafter.paired
    | cons u before ih =>
        obtain ⟨hhead, hrest⟩ := paired_cons.mp h
        rw [List.cons_append, paired_cons]
        refine ⟨?_, ih hrest⟩
        cases before with
        | nil => exact hhead.trans hafter.1.symm
        | cons v before => exact hhead
  rw [wellFormed_iff]
  refine ⟨?_, hpaired before hbefore.paired⟩
  cases before with
  | nil => exact hafter.1
  | cons u before => exact hbefore.1

/-! ## Windows -/

theorem lowAt_window : lowAt ((text.drop n).take m) i = (decide (i < m) && lowAt text (n + i)) := by
  rw [lowAt, lowAt, List.getElem?_take]
  by_cases hi : i < m
  · rw [if_pos hi, List.getElem?_drop, decide_eq_true hi, Bool.true_and]
  · rw [if_neg hi, decide_eq_false hi]
    rfl

theorem highAt_window :
    highAt ((text.drop n).take m) i = (decide (i < m) && highAt text (n + i)) := by
  rw [highAt, highAt, List.getElem?_take]
  by_cases hi : i < m
  · rw [if_pos hi, List.getElem?_drop, decide_eq_true hi, Bool.true_and]
  · rw [if_neg hi, decide_eq_false hi]
    rfl

/-- **A window is well formed exactly when its ends separate no pair.** -/
theorem wellFormed_window_iff (h : WellFormed text) (hm : 0 < m) :
    WellFormed ((text.drop n).take m) ↔ lowAt text n = false ∧ lowAt text (n + m) = false := by
  rw [wellFormed_iff, lowAt_window, decide_eq_true hm, Bool.true_and, Nat.add_zero]
  refine and_congr_right fun _ => ?_
  constructor
  · intro hpaired
    have hlast := hpaired (m - 1)
    rw [highAt_window, lowAt_window, decide_eq_true (by omega), decide_eq_false (by omega),
      Bool.true_and, Bool.false_and, h.paired] at hlast
    rwa [show n + (m - 1) + 1 = n + m by omega] at hlast
  · intro hend i
    rw [highAt_window, lowAt_window]
    rcases Nat.lt_trichotomy (i + 1) m with hi | hi | hi
    · rw [decide_eq_true (by omega), decide_eq_true hi, Bool.true_and, Bool.true_and, h.paired]
      rfl
    · rw [decide_eq_true (by omega), decide_eq_false (by omega), Bool.true_and, Bool.false_and,
        h.paired, show n + i + 1 = n + m by omega, hend]
    · rw [decide_eq_false (by omega), decide_eq_false (by omega), Bool.false_and, Bool.false_and]

end Utf16
