import Mathlib.Data.List.Infix
import Mathlib.Tactic

/-!
# Patterns with wildcards

The pattern language of SQL's `LIKE`, over any alphabet with three special characters: one
that stands for any sequence, one for any one character, and one that takes the next
character literally.  A pattern is read into tokens first; a pattern that ends with a lone
escape character is refused.

A text that is put between two sequence characters and has no special character matches
exactly the texts that contain it (`accepts_contains_iff`).  With a special character it
matches a text that does not (`accepts_other`).
-/

namespace Like

/-- The special characters of an alphabet. -/
structure Specials (α : Type*) where
  sequence : α
  one : α
  escape : α

inductive Token (α : Type*)
  | sequence
  | one
  | literal (c : α)
  deriving DecidableEq, Repr

section Patterns

variable {α : Type*} [DecidableEq α] (specials : Specials α)

def Specials.IsSpecial (c : α) : Prop :=
  c = specials.sequence ∨ c = specials.one ∨ c = specials.escape

instance (c : α) : Decidable (specials.IsSpecial c) := by
  unfold Specials.IsSpecial
  infer_instance

/-- What a character stands for where it is not escaped. -/
def Specials.tokenOf (c : α) : Token α :=
  if c = specials.sequence then .sequence
  else if c = specials.one then .one
  else .literal c

/-- The tokens of a pattern, unless it ends with a lone escape character. -/
def parse : List α → Option (List (Token α))
  | [] => some []
  | c :: rest =>
      if c = specials.escape then
        match rest with
        | [] => none
        | next :: rest => (parse rest).map (.literal next :: ·)
      else (parse rest).map (specials.tokenOf c :: ·)

/-- Whether a text is one of those that the tokens stand for. -/
def accepts : List (Token α) → List α → Bool
  | [], text => text.isEmpty
  | .sequence :: tokens, text => text.tails.any (accepts tokens)
  | .one :: _, [] => false
  | .one :: tokens, _ :: text => accepts tokens text
  | .literal _ :: _, [] => false
  | .literal c :: tokens, first :: text => first = c && accepts tokens text

variable {specials} {tokens : List (Token α)} {text phrase : List α} {c : α}

/-! ## Reading a pattern -/

theorem parse_cons (h : c ≠ specials.escape) (rest : List α) :
    parse specials (c :: rest) = (parse specials rest).map (specials.tokenOf c :: ·) := by
  cases rest with
  | nil => simp [parse, h]
  | cons next rest => simp [parse, h]

theorem tokenOf_literal (h : ¬ specials.IsSpecial c) : specials.tokenOf c = .literal c := by
  simp only [Specials.IsSpecial, not_or] at h
  rw [Specials.tokenOf, if_neg h.1, if_neg h.2.1]

theorem tokenOf_sequence : specials.tokenOf specials.sequence = .sequence := by
  simp [Specials.tokenOf]

/-! ## Plain texts -/

theorem accepts_sequence : accepts (.sequence :: tokens) text = true ↔
    ∃ suffix, suffix <:+ text ∧ accepts tokens suffix = true := by
  simp [accepts, List.any_eq_true]

/-- At the end of a pattern a sequence takes whatever is left. -/
theorem accepts_literals_sequence :
    accepts (phrase.map Token.literal ++ [.sequence]) text = true ↔ phrase <+: text := by
  induction phrase generalizing text with
  | nil =>
      simp only [List.map_nil, List.nil_append, List.nil_prefix, iff_true]
      exact accepts_sequence.mpr ⟨[], List.nil_suffix, rfl⟩
  | cons c phrase ih =>
      cases text with
      | nil => simp [accepts]
      | cons first text =>
          simp only [List.map_cons, List.cons_append, accepts, Bool.and_eq_true,
            decide_eq_true_eq, ih, List.cons_prefix_cons]
          exact and_congr_left fun _ => eq_comm

theorem parse_plain (hsequence : specials.sequence ≠ specials.escape)
    (hplain : ∀ c ∈ phrase, ¬ specials.IsSpecial c) :
    parse specials (phrase ++ [specials.sequence]) =
      some (phrase.map Token.literal ++ [.sequence]) := by
  induction phrase with
  | nil => simp [parse, hsequence, tokenOf_sequence]
  | cons c phrase ih =>
      obtain ⟨hc, hrest⟩ := List.forall_mem_cons.mp hplain
      have hescape : c ≠ specials.escape := fun h => hc (.inr (.inr h))
      rw [List.cons_append, parse_cons hescape, ih hrest, tokenOf_literal hc]
      rfl

/-- **Containment.**  A text without special characters, between two sequences, matches the
texts that contain it. -/
theorem accepts_contains_iff (hsequence : specials.sequence ≠ specials.escape)
    (hplain : ∀ c ∈ phrase, ¬ specials.IsSpecial c) :
    ∃ tokens, parse specials (specials.sequence :: phrase ++ [specials.sequence]) = some tokens ∧
      (accepts tokens text = true ↔ phrase <:+: text) := by
  refine ⟨.sequence :: (phrase.map Token.literal ++ [.sequence]), ?_, ?_⟩
  · rw [List.cons_append, parse_cons hsequence, parse_plain hsequence hplain, tokenOf_sequence]
    rfl
  · rw [accepts_sequence]
    simp only [accepts_literals_sequence]
    constructor
    · rintro ⟨suffix, hsuffix, hprefix⟩
      exact hprefix.isInfix.trans hsuffix.isInfix
    · rintro ⟨before, after, rfl⟩
      exact ⟨phrase ++ after, ⟨before, by simp⟩, List.prefix_append _ _⟩

/-! ## Texts with special characters -/

variable (specials) (fill : α)

/-- A short text that matches a pattern: nothing for a sequence, `fill` for any one
character.  A lone escape character at the end takes the sequence that follows. -/
def sampleOf : List α → List α
  | [] => []
  | c :: rest =>
      if c = specials.escape then
        match rest with
        | [] => [specials.sequence]
        | next :: rest => next :: sampleOf rest
      else if c = specials.sequence then sampleOf rest
      else if c = specials.one then fill :: sampleOf rest
      else c :: sampleOf rest

variable {specials fill}

theorem sampleOf_cons (h : c ≠ specials.escape) (rest : List α) :
    sampleOf specials fill (c :: rest) =
      if c = specials.sequence then sampleOf specials fill rest
      else if c = specials.one then fill :: sampleOf specials fill rest
      else c :: sampleOf specials fill rest := by
  cases rest with
  | nil => simp [sampleOf, h]
  | cons next rest => simp [sampleOf, h]

theorem length_sampleOf (phrase : List α) :
    (sampleOf specials fill phrase).length ≤ phrase.length := by
  fun_induction sampleOf specials fill phrase with
  | case1 => exact Nat.le_refl _
  | case2 => exact Nat.le_refl _
  | case3 next rest ih => simp only [List.length_cons]; omega
  | case4 rest _ ih => simp only [List.length_cons]; omega
  | case5 rest _ _ ih => simp only [List.length_cons]; omega
  | case6 c rest _ _ _ ih => simp only [List.length_cons]; omega

/-- Every text before a sequence is a pattern, and its sample matches it. -/
theorem accepts_sample (hsequence : specials.sequence ≠ specials.escape) (phrase : List α) :
    ∃ tokens, parse specials (phrase ++ [specials.sequence]) = some tokens ∧
      accepts tokens (sampleOf specials fill phrase) = true := by
  have hend : accepts [Token.sequence] ([] : List α) = true := by simp [accepts]
  fun_induction sampleOf specials fill phrase with
  | case1 => exact ⟨[.sequence], by simp [parse, hsequence, tokenOf_sequence], hend⟩
  | case2 => exact ⟨[.literal specials.sequence], by simp [parse], by simp [accepts]⟩
  | case3 next rest ih =>
      obtain ⟨tokens, hparse, haccepts⟩ := ih
      exact ⟨.literal next :: tokens, by simp [parse, hparse], by simp [accepts, haccepts]⟩
  | case4 rest hescape ih =>
      obtain ⟨tokens, hparse, haccepts⟩ := ih
      refine ⟨.sequence :: tokens, ?_, accepts_sequence.mpr ⟨_, List.suffix_rfl, haccepts⟩⟩
      rw [List.cons_append, parse_cons hescape, hparse, tokenOf_sequence]
      rfl
  | case5 rest hescape hother ih =>
      obtain ⟨tokens, hparse, haccepts⟩ := ih
      refine ⟨.one :: tokens, ?_, by simpa [accepts]⟩
      rw [List.cons_append, parse_cons hescape, hparse, Specials.tokenOf, if_neg hother, if_pos rfl]
      rfl
  | case6 c rest hescape hother hone ih =>
      obtain ⟨tokens, hparse, haccepts⟩ := ih
      refine ⟨.literal c :: tokens, ?_, by simp [accepts, haccepts]⟩
      rw [List.cons_append, parse_cons hescape, hparse, Specials.tokenOf, if_neg hother, if_neg hone]
      rfl

/-- A sample is the text itself only where nothing is special. -/
theorem plain_of_sample (hsequence : specials.sequence ≠ specials.escape)
    (hfill : fill ≠ specials.one) {phrase : List α}
    (h : sampleOf specials fill phrase = phrase) : ∀ c ∈ phrase, ¬ specials.IsSpecial c := by
  fun_induction sampleOf specials fill phrase with
  | case1 => simp
  | case2 => exact absurd (List.cons.inj h).1 hsequence
  | case3 next rest ih =>
      have hlength := @length_sampleOf _ _ specials fill rest
      have hshorter := congrArg List.length h
      simp only [List.length_cons] at hshorter
      omega
  | case4 rest hescape ih =>
      have hlength := @length_sampleOf _ _ specials fill rest
      have hshorter := congrArg List.length h
      simp only [List.length_cons] at hshorter
      omega
  | case5 rest _ _ ih => exact absurd (List.cons.inj h).1 hfill
  | case6 c rest hescape hother hone ih =>
      refine List.forall_mem_cons.mpr ⟨?_, ih (List.cons.inj h).2⟩
      simp [Specials.IsSpecial, hescape, hother, hone]

/-- **Wildcards.**  Between two sequences, a text with a special character matches some text
that does not contain it. -/
theorem accepts_other (hsequence : specials.sequence ≠ specials.escape)
    (hfill : fill ≠ specials.one) (hspecial : ∃ c ∈ phrase, specials.IsSpecial c) :
    ∃ tokens, parse specials (specials.sequence :: phrase ++ [specials.sequence]) = some tokens ∧
      accepts tokens (sampleOf specials fill phrase) = true ∧
      ¬ phrase <:+: sampleOf specials fill phrase := by
  obtain ⟨tokens, hparse, haccepts⟩ := @accepts_sample _ _ specials fill hsequence phrase
  refine ⟨.sequence :: tokens, ?_, accepts_sequence.mpr ⟨_, List.suffix_rfl, haccepts⟩, ?_⟩
  · rw [List.cons_append, parse_cons hsequence, hparse, tokenOf_sequence]
    rfl
  · intro hinfix
    have hsame : phrase = sampleOf specials fill phrase :=
      hinfix.eq_of_length_le (length_sampleOf phrase)
    obtain ⟨c, hmem, hc⟩ := hspecial
    exact plain_of_sample hsequence hfill hsame.symm c hmem hc

end Patterns

end Like
