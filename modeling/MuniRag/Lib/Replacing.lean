import Mathlib.Data.List.Infix
import Mathlib.Tactic

/-!
# Replacing every match

A global replacement reads a text once from left to right: at each element the
rule either matches, and its replacement stands for the whole match, or the element
is kept.  What has been read is not read again, so that a text can be taken apart
into pieces that are replaced one by one.
-/

namespace Replacing

variable {α : Type*}

/-- What stands in the place of a match at the head of a text, and how long the match
is beyond its first element. -/
abbrev Rule (α : Type*) := List α → Option (List α × Nat)

variable (rule : Rule α)

/-- The replaced text, after `skip` elements of the match before it. -/
def replaceFrom : Nat → List α → List α
  | _, [] => []
  | skip + 1, _ :: rest => replaceFrom skip rest
  | 0, x :: rest =>
      match rule (x :: rest) with
      | some (replacement, more) => replacement ++ replaceFrom more rest
      | none => x :: replaceFrom 0 rest

def replaceAll (text : List α) : List α := replaceFrom rule 0 text

variable {rule} {x : α} {text before rest replacement : List α}

@[simp] theorem replaceAll_nil : replaceAll rule [] = [] := rfl

theorem replaceFrom_eq_drop (skip : Nat) (text : List α) :
    replaceFrom rule skip text = replaceAll rule (text.drop skip) := by
  induction skip generalizing text with
  | zero => rfl
  | succ skip ih =>
      cases text with
      | nil => rfl
      | cons x text => exact ih text

/-- An element at which nothing matches is kept. -/
theorem replaceAll_keep (h : rule (x :: rest) = none) :
    replaceAll rule (x :: rest) = x :: replaceAll rule rest := by
  rw [replaceAll, replaceFrom, h]
  rfl

/-- A match is replaced, and what follows it is read next. -/
theorem replaceAll_match {more : Nat} (h : rule (x :: rest) = some (replacement, more)) :
    replaceAll rule (x :: rest) = replacement ++ replaceAll rule (rest.drop more) := by
  rw [replaceAll, replaceFrom, h]
  exact congrArg (replacement ++ ·) (replaceFrom_eq_drop more rest)

/-- A match of a known piece in front of the rest. -/
theorem replaceAll_piece {more : Nat} (h : rule (x :: before ++ rest) = some (replacement, more))
    (hmore : more = before.length) :
    replaceAll rule (x :: before ++ rest) = replacement ++ replaceAll rule rest := by
  rw [List.cons_append] at h ⊢
  rw [replaceAll_match h, hmore, List.drop_left]

/-- The rule matches only at elements of a class. -/
def StartsIn (p : α → Bool) (rule : Rule α) : Prop := ∀ x rest, p x = false → rule (x :: rest) = none

/-- A piece without such elements is kept. -/
theorem replaceAll_append {p : α → Bool} (hstarts : StartsIn p rule)
    (hbefore : ∀ x ∈ before, p x = false) (rest : List α) :
    replaceAll rule (before ++ rest) = before ++ replaceAll rule rest := by
  induction before with
  | nil => rfl
  | cons x before ih =>
      obtain ⟨hx, hrest⟩ := List.forall_mem_cons.mp hbefore
      rw [List.cons_append, replaceAll_keep (hstarts x _ hx), ih hrest, List.cons_append]

theorem replaceAll_quiet {p : α → Bool} (hstarts : StartsIn p rule)
    (htext : ∀ x ∈ text, p x = false) : replaceAll rule text = text := by
  have happend := replaceAll_append hstarts htext []
  rwa [List.append_nil, replaceAll_nil, List.append_nil] at happend

/-- A text in which the rule matches nowhere is kept. -/
theorem replaceAll_eq_self (h : ∀ x rest, x :: rest <:+ text → rule (x :: rest) = none) :
    replaceAll rule text = text := by
  induction text with
  | nil => rfl
  | cons x text ih =>
      rw [replaceAll_keep (h x text List.suffix_rfl), ih]
      intro y rest hsuffix
      exact h y rest (hsuffix.trans (List.suffix_cons x text))

/-- What replacements bring in has a property, and so has what is kept. -/
theorem replaceAll_mem {P : α → Prop} (htext : ∀ x ∈ text, P x)
    (hrule : ∀ matched replacement more, matched <:+ text → rule matched = some (replacement, more) →
      ∀ x ∈ replacement, P x) :
    ∀ x ∈ replaceAll rule text, P x := by
  have hfrom : ∀ (suffix : List α) (skip : Nat), suffix <:+ text →
      ∀ x ∈ replaceFrom rule skip suffix, P x := by
    intro suffix
    induction suffix with
    | nil =>
        intro skip _ x hx
        cases skip <;> exact absurd hx List.not_mem_nil
    | cons y suffix ih =>
        intro skip hsuffix x hx
        have hrest := (List.suffix_cons y suffix).trans hsuffix
        cases skip with
        | succ skip => exact ih skip hrest x hx
        | zero =>
            rw [replaceFrom] at hx
            split at hx
            · next replacement more hmatch =>
                rcases List.mem_append.mp hx with hnew | hold
                · exact hrule _ _ _ hsuffix hmatch x hnew
                · exact ih more hrest x hold
            · rcases List.mem_cons.mp hx with rfl | hold
              · exact htext _ (hsuffix.subset List.mem_cons_self)
              · exact ih 0 hrest x hold
  exact hfrom text 0 List.suffix_rfl

end Replacing
