import Mathlib.Data.List.Infix
import Mathlib.Tactic

/-!
# Patterns of one length

A pattern that is a sequence of character classes, looked for at the end of a text.  The
search tries the places of the text from left to right.  As all matches have one length,
at most one place can match, and the search finds it (`findAtEnd_eq_some_iff`).
-/

namespace FixedPattern

variable {α β : Type*} {pattern left right : List (α → Bool)} {text : List α}

/-- The classes match the units one by one. -/
def matchesAll : List (α → Bool) → List α → Bool
  | [], [] => true
  | test :: pattern, u :: text => test u && matchesAll pattern text
  | _, _ => false

/-- The first place of the text from which the pattern matches the whole rest. -/
def findAtEnd (pattern : List (α → Bool)) (text : List α) : Option (List α) :=
  text.tails.find? (matchesAll pattern)

theorem length_of_matches (h : matchesAll pattern text = true) : text.length = pattern.length := by
  induction pattern generalizing text with
  | nil =>
      cases text with
      | nil => rfl
      | cons u text => exact absurd h Bool.false_ne_true
  | cons test pattern ih =>
      cases text with
      | nil => exact absurd h Bool.false_ne_true
      | cons u text => exact congrArg (· + 1) (ih (Bool.and_eq_true_iff.mp h).2)

theorem matches_append : matchesAll (left ++ right) text = true ↔
    ∃ first second, text = first ++ second ∧ matchesAll left first = true ∧
      matchesAll right second = true := by
  constructor
  · intro h
    induction left generalizing text with
    | nil => exact ⟨[], text, rfl, rfl, h⟩
    | cons test left ih =>
        cases text with
        | nil => exact absurd h Bool.false_ne_true
        | cons u text =>
            obtain ⟨hu, hrest⟩ := Bool.and_eq_true_iff.mp h
            obtain ⟨first, second, rfl, hfirst, hsecond⟩ := ih hrest
            exact ⟨u :: first, second, rfl, Bool.and_eq_true_iff.mpr ⟨hu, hfirst⟩, hsecond⟩
  · rintro ⟨first, second, rfl, hfirst, hsecond⟩
    induction left generalizing first with
    | nil =>
        obtain rfl := List.length_eq_zero_iff.mp (length_of_matches hfirst)
        exact hsecond
    | cons test left ih =>
        cases first with
        | nil => exact absurd hfirst Bool.false_ne_true
        | cons u first =>
            obtain ⟨hu, hfirst⟩ := Bool.and_eq_true_iff.mp hfirst
            exact Bool.and_eq_true_iff.mpr ⟨hu, ih first hfirst⟩

theorem matches_replicate {test : α → Bool} {n : Nat} :
    matchesAll (List.replicate n test) text = true ↔
      text.length = n ∧ ∀ u ∈ text, test u = true := by
  induction n generalizing text with
  | zero =>
      cases text with
      | nil => exact ⟨fun _ => ⟨rfl, by simp⟩, fun _ => rfl⟩
      | cons u text => simp [matchesAll]
  | succ n ih =>
      cases text with
      | nil => simp [matchesAll, List.replicate_succ]
      | cons u text =>
          rw [List.replicate_succ, matchesAll, Bool.and_eq_true_iff, ih, List.forall_mem_cons,
            List.length_cons, Nat.add_right_cancel_iff]
          tauto

/-- A literal whose units are compared through a function, such as one that forgets case. -/
theorem matches_literal [DecidableEq β] {f : α → β} {literal : List α} :
    matchesAll (literal.map fun u v => decide (f v = f u)) text = true ↔
      text.map f = literal.map f := by
  induction literal generalizing text with
  | nil =>
      cases text with
      | nil => exact ⟨fun _ => rfl, fun _ => rfl⟩
      | cons u text => simp [matchesAll]
  | cons u literal ih =>
      cases text with
      | nil => simp [matchesAll]
      | cons v text =>
          rw [List.map_cons, matchesAll, Bool.and_eq_true_iff, decide_eq_true_iff, ih,
            List.map_cons, List.map_cons, List.cons.injEq]

/-- **The search** finds the end of the text that the pattern matches, if there is one. -/
theorem findAtEnd_eq_some_iff {rest : List α} : findAtEnd pattern text = some rest ↔
    rest <:+ text ∧ matchesAll pattern rest = true := by
  constructor
  · intro h
    exact ⟨(List.mem_tails _ _).mp (List.mem_of_find?_eq_some h),
      List.find?_some h⟩
  · rintro ⟨hsuffix, hmatches⟩
    have hsome : (findAtEnd pattern text).isSome = true :=
      List.find?_isSome.mpr ⟨rest, (List.mem_tails _ _).mpr hsuffix, hmatches⟩
    obtain ⟨other, hother⟩ := Option.isSome_iff_exists.mp hsome
    have hotherSuffix : other <:+ text := (List.mem_tails _ _).mp (List.mem_of_find?_eq_some hother)
    have hotherMatches : matchesAll pattern other = true :=
      List.find?_some hother
    have hlength : other.length = rest.length :=
      (length_of_matches hotherMatches).trans (length_of_matches hmatches).symm
    obtain rfl : other = rest :=
      (List.suffix_of_suffix_length_le hotherSuffix hsuffix hlength.le).eq_of_length hlength
    exact hother

end FixedPattern
