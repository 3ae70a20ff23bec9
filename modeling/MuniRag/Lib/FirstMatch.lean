import Mathlib.Data.List.Infix
import Mathlib.Tactic

/-!
# The first match of a literal and a run

The pattern of a literal followed by a non-empty run of a class of elements.  A
search takes the first place where it matches and captures the longest run there.
More text behind a text with a match moves no match; it can only make the run
longer (`after_append`).
-/

namespace FirstMatch

variable {α : Type*} [DecidableEq α] (literal : List α) (run : α → Bool)

/-- Whether the pattern matches at the head of a text. -/
def matchesHere (text : List α) : Bool :=
  literal.isPrefixOf text && (text.drop literal.length).head?.any run

/-- What stands behind the literal at the first match. -/
def after : List α → Option (List α)
  | [] => none
  | x :: rest =>
      if matchesHere literal run (x :: rest) then some ((x :: rest).drop literal.length)
      else after rest

/-- The run that the first match captures. -/
def capture (text : List α) : Option (List α) := (after literal run text).map (List.takeWhile run)

variable {literal run} {text post more : List α}

theorem matchesHere_iff :
    matchesHere literal run text = true ↔
      ∃ post, text = literal ++ post ∧ post.head?.any run = true := by
  unfold matchesHere
  rw [Bool.and_eq_true, List.isPrefixOf_iff_prefix]
  constructor
  · rintro ⟨⟨post, rfl⟩, hrun⟩
    rw [List.drop_left] at hrun
    exact ⟨post, rfl, hrun⟩
  · rintro ⟨post, rfl, hrun⟩
    rw [List.drop_left]
    exact ⟨List.prefix_append _ _, hrun⟩

theorem after_of_matchesHere (h : matchesHere literal run text = true) :
    after literal run text = some (text.drop literal.length) := by
  cases text with
  | nil =>
      obtain ⟨post, htext, hrun⟩ := matchesHere_iff.mp h
      rw [(List.append_eq_nil_iff.mp htext.symm).2] at hrun
      simp at hrun
  | cons x rest => rw [after, if_pos h]

/-- A match is an occurrence of the literal with the run behind it. -/
theorem after_eq_some (h : after literal run text = some post) :
    ∃ before, text = before ++ literal ++ post ∧ post.head?.any run = true := by
  induction text with
  | nil => simp [after] at h
  | cons x rest ih =>
      rw [after] at h
      by_cases hhere : matchesHere literal run (x :: rest) = true
      · rw [if_pos hhere] at h
        obtain ⟨found, hfound, hrun⟩ := matchesHere_iff.mp hhere
        rw [hfound, List.drop_left] at h
        cases h
        exact ⟨[], by simpa using hfound, hrun⟩
      · rw [if_neg hhere] at h
        obtain ⟨before, hbefore, hrun⟩ := ih h
        exact ⟨x :: before, by rw [hbefore]; simp, hrun⟩

/-- A text with an occurrence has a match. -/
theorem after_isSome (before : List α) (hrun : post.head?.any run = true) :
    (after literal run (before ++ literal ++ post)).isSome = true := by
  induction before with
  | nil =>
      rw [List.nil_append, after_of_matchesHere (matchesHere_iff.mpr ⟨post, rfl, hrun⟩)]
      rfl
  | cons x before ih =>
      rw [List.cons_append, List.cons_append, after]
      split
      · rfl
      · exact ih

omit [DecidableEq α] in
theorem head?_append_any (h : post.head?.any run = true) : (post ++ more).head?.any run = true := by
  cases post with
  | nil => simp at h
  | cons x rest => simpa using h

/-- A match at the head of a text with more behind it, where the text is long
enough to hold the literal and one element of the run, is a match of the text. -/
theorem matchesHere_of_append (hlong : literal.length < text.length)
    (h : matchesHere literal run (text ++ more) = true) : matchesHere literal run text = true := by
  obtain ⟨found, hfound, hrun⟩ := matchesHere_iff.mp h
  have hprefix : literal <+: text := by
    have hwhole : literal <+: text ++ more := by
      rw [hfound]
      exact List.prefix_append _ _
    exact List.prefix_of_prefix_length_le hwhole (List.prefix_append _ _) (by omega)
  obtain ⟨rest, rfl⟩ := hprefix
  rw [List.append_assoc] at hfound
  have hrest := List.append_cancel_left hfound
  cases rest with
  | nil => simp at hlong
  | cons x rest =>
      refine matchesHere_iff.mpr ⟨x :: rest, rfl, ?_⟩
      rw [← hrest] at hrun
      simpa using hrun

/-- **More text.** More text behind a text with a match leaves the match where it is. -/
theorem after_append (h : after literal run text = some post) :
    after literal run (text ++ more) = some (post ++ more) := by
  induction text with
  | nil => simp [after] at h
  | cons x rest ih =>
      rw [after] at h
      by_cases hhere : matchesHere literal run (x :: rest) = true
      · rw [if_pos hhere] at h
        obtain ⟨found, hfound, hrun⟩ := matchesHere_iff.mp hhere
        rw [hfound, List.drop_left] at h
        cases h
        rw [hfound, List.append_assoc,
          after_of_matchesHere (matchesHere_iff.mpr ⟨_, rfl, head?_append_any hrun⟩),
          List.drop_left]
      · rw [if_neg hhere] at h
        obtain ⟨before, hbefore, hrun⟩ := after_eq_some h
        have hlong : literal.length < (x :: rest).length := by
          cases post with
          | nil => simp at hrun
          | cons y post =>
              rw [hbefore]
              simp only [List.length_cons, List.length_append]
              omega
        have hnot : ¬ matchesHere literal run (x :: rest ++ more) = true :=
          fun hmore => hhere (matchesHere_of_append hlong hmore)
        rw [List.cons_append] at hnot ⊢
        rw [after, if_neg hnot]
        exact ih h

end FirstMatch
