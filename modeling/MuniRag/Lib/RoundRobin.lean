import MuniRag.Lib.LimitedSearch

/-!
# Selecting round robin

Ranked batches are read round by round: the first items of all batches, then the second
ones, and so on, as long as fewer items than a limit are selected.  An item whose key was
selected is skipped.  What is selected are the first items of each key in the order of the
rounds, up to the limit (`append_upto`), and among these an item of an earlier round comes
before one that is first seen later (`pairwise_firstBy_rounds`).
-/

namespace RoundRobin

open LimitedSearch

variable {α κ : Type*} [DecidableEq κ]

/-! ## The loops -/

structure Selection (α κ : Type*) where
  selected : List α
  seen : List κ

def Selection.add (key : α → κ) (item : α) (selection : Selection α κ) : Selection α κ where
  selected := selection.selected ++ [item]
  seen := selection.seen ++ [key item]

/-- One round: the items at a depth, batch after batch, until the limit is reached. -/
def visit (key : α → κ) (limit depth : Nat) :
    List (List α) → Selection α κ → Selection α κ
  | [], selection => selection
  | batch :: batches, selection =>
      match batch[depth]? with
      | none => visit key limit depth batches selection
      | some item =>
          if key item ∈ selection.seen then visit key limit depth batches selection
          else if limit ≤ (selection.add key item).selected.length then selection.add key item
          else visit key limit depth batches (selection.add key item)

/-- The rounds from a depth on, as long as the limit is not reached. -/
def descend (key : α → κ) (limit : Nat) (batches : List (List α)) :
    Nat → Nat → Selection α κ → Selection α κ
  | 0, _, selection => selection
  | remaining + 1, depth, selection =>
      if selection.selected.length < limit then
        descend key limit batches remaining (depth + 1) (visit key limit depth batches selection)
      else selection

def maximumDepth (batches : List (List α)) : Nat := (batches.map List.length).foldr max 0

def append (key : α → κ) (limit : Nat) (batches : List (List α)) (selection : Selection α κ) :
    Selection α κ :=
  descend key limit batches (maximumDepth batches) 0 selection

/-! ## The rounds -/

def roundAt (batches : List (List α)) (depth : Nat) : List α := batches.filterMap (·[depth]?)

def rounds (batches : List (List α)) : List (List α) :=
  (List.range (maximumDepth batches)).map (roundAt batches)

variable {key : α → κ} {limit depth : Nat} {batches : List (List α)} {items : List α}
  {selection : Selection α κ} {item : α}

theorem length_le_maximumDepth {batch : List α} (h : batch ∈ batches) :
    batch.length ≤ maximumDepth batches := by
  induction batches with
  | nil => exact absurd h List.not_mem_nil
  | cons first batches ih =>
      change batch.length ≤ max first.length (maximumDepth batches)
      rcases List.mem_cons.mp h with rfl | h
      · exact Nat.le_max_left _ _
      · exact (ih h).trans (Nat.le_max_right _ _)

theorem mem_rounds : item ∈ (rounds batches).flatten ↔ ∃ batch ∈ batches, item ∈ batch := by
  simp only [rounds, roundAt, List.mem_flatten, List.mem_map, List.mem_range]
  constructor
  · rintro ⟨_, ⟨depth, -, rfl⟩, hitem⟩
    obtain ⟨batch, hbatch, hget⟩ := List.mem_filterMap.mp hitem
    exact ⟨batch, hbatch, List.mem_of_getElem? hget⟩
  · rintro ⟨batch, hbatch, hitem⟩
    obtain ⟨depth, hdepth, hget⟩ := List.mem_iff_getElem.mp hitem
    refine ⟨_, ⟨depth, hdepth.trans_le (length_le_maximumDepth hbatch), rfl⟩, ?_⟩
    exact List.mem_filterMap.mpr ⟨batch, hbatch, List.getElem?_eq_some_iff.mpr ⟨hdepth, hget⟩⟩

theorem rounds_singleton (batch : List α) : (rounds [batch]).flatten = batch := by
  have hrounds : rounds [batch] = batch.map ([·]) := by
    refine List.ext_getElem (by simp [rounds, maximumDepth]) fun depth hleft hright => ?_
    have hdepth : depth < batch.length := by simpa using hright
    simp [rounds, roundAt, List.getElem?_eq_getElem hdepth]
  rw [hrounds, ← List.flatMap_def]
  exact List.flatMap_singleton' batch

/-- Items with different keys are all first ones. -/
theorem firstBy_of_nodup (h : (items.map key).Nodup) : firstBy key items = items := by
  induction items with
  | nil => rfl
  | cons item items ih =>
      obtain ⟨hnew, hrest⟩ := List.nodup_cons.mp h
      rw [firstBy, ih hrest]
      refine congrArg (item :: ·) (List.filter_eq_self.mpr fun other hother => ?_)
      exact decide_eq_true fun hsame => hnew (hsame ▸ List.mem_map_of_mem hother)

/-! ## What is selected -/

/-- The first items of each key among `items`, up to the limit, are selected. -/
structure Upto (key : α → κ) (limit : Nat) (items : List α) (selection : Selection α κ) :
    Prop where
  selected : selection.selected = (firstBy key items).take limit
  seen : selection.seen = selection.selected.map key

theorem upto_nil : Upto key limit [] ⟨[], []⟩ := ⟨by simp [firstBy], rfl⟩

/-- Nothing changes once the limit is reached. -/
theorem Upto.full (h : Upto key limit items selection) (hfull : ¬ selection.selected.length < limit)
    (more : List α) : Upto key limit (items ++ more) selection := by
  refine ⟨?_, h.seen⟩
  have hlength : limit ≤ (firstBy key items).length := by
    rw [h.selected, List.length_take] at hfull
    omega
  rw [firstBy_append, List.take_append_of_le_length hlength, h.selected]

theorem Upto.all (h : Upto key limit items selection) (hroom : selection.selected.length < limit) :
    selection.selected = firstBy key items := by
  have hlength : (firstBy key items).length ≤ limit := by
    rw [h.selected, List.length_take] at hroom
    omega
  rw [h.selected, List.take_of_length_le hlength]

theorem Upto.skip (h : Upto key limit items selection) (hseen : key item ∈ selection.seen) :
    Upto key limit (items ++ [item]) selection := by
  refine ⟨?_, h.seen⟩
  rw [h.seen, h.selected] at hseen
  obtain ⟨other, hother, hkey⟩ := List.mem_map.mp hseen
  have hmem : other ∈ items := (firstBy_sublist key items).subset (List.mem_of_mem_take hother)
  rw [firstBy_concat_seen (hkey ▸ List.mem_map_of_mem hmem), h.selected]

theorem Upto.add (h : Upto key limit items selection) (hroom : selection.selected.length < limit)
    (hnew : key item ∉ selection.seen) :
    Upto key limit (items ++ [item]) (selection.add key item) := by
  have hnot : key item ∉ items.map key := by
    intro hmem
    obtain ⟨other, hother, hkey⟩ := List.mem_map.mp hmem
    obtain ⟨first, hfirst, hsame⟩ := @exists_firstBy _ _ _ key _ _ hother
    refine hnew ?_
    rw [h.seen, h.all hroom, ← hkey, ← hsame]
    exact List.mem_map_of_mem hfirst
  constructor
  · have hlength : (selection.selected ++ [item]).length ≤ limit := by
      rw [List.length_append]
      exact hroom
    rw [firstBy_concat_new hnot, ← h.all hroom, List.take_of_length_le hlength]
    rfl
  · simp [Selection.add, h.seen]

/-- **One round.** -/
theorem visit_upto (h : Upto key limit items selection)
    (hroom : selection.selected.length < limit) :
    Upto key limit (items ++ roundAt batches depth) (visit key limit depth batches selection) := by
  induction batches generalizing items selection with
  | nil => simpa [roundAt, visit] using h
  | cons batch batches ih =>
      unfold visit
      cases hget : batch[depth]? with
      | none =>
          have hround : roundAt (batch :: batches) depth = roundAt batches depth :=
            List.filterMap_cons_none hget
          rw [hround]
          exact ih h hroom
      | some item =>
          have hround : roundAt (batch :: batches) depth = [item] ++ roundAt batches depth :=
            List.filterMap_cons_some hget
          rw [hround, ← List.append_assoc]
          simp only
          split_ifs with hseen hfull
          · exact ih (h.skip hseen) hroom
          · exact (h.add hroom hseen).full (Nat.not_lt.mpr hfull) _
          · exact ih (h.add hroom hseen) (Nat.not_le.mp hfull)

theorem descend_upto (remaining : Nat) (h : Upto key limit items selection) :
    Upto key limit (items ++ ((List.range' depth remaining).map (roundAt batches)).flatten)
      (descend key limit batches remaining depth selection) := by
  induction remaining generalizing depth items selection with
  | zero => simpa [descend] using h
  | succ remaining ih =>
      unfold descend
      split_ifs with hroom
      · rw [List.range'_succ, List.map_cons, List.flatten_cons, ← List.append_assoc]
        exact ih (visit_upto h hroom)
      · exact h.full hroom _

/-- **Selection.**  Appending batches selects the first items of each key in the order of
their rounds, after the ones selected before and up to the limit. -/
theorem append_upto (h : Upto key limit items selection) :
    Upto key limit (items ++ (rounds batches).flatten) (append key limit batches selection) := by
  have hranges := @descend_upto _ _ _ key limit 0 batches _ _ (maximumDepth batches) h
  rwa [← List.range_eq_range'] at hranges

/-! ## The order of the rounds -/

section Order

variable {π : Type*} {place : α → π}

/-- An item of the same place stands in one of the first `n` rounds. -/
def SeenWithin (place : α → π) (lists : List (List α)) (n : Nat) (item : α) : Prop :=
  ∃ list ∈ lists.take n, ∃ other ∈ list, place other = place item

/-- **Order.**  An item that comes before another one is seen in the same round or earlier. -/
theorem pairwise_firstBy_rounds (hplace : ∀ left right, place left = place right →
      key left = key right) (lists : List (List α)) :
    (firstBy key lists.flatten).Pairwise fun left right =>
      ∀ n, SeenWithin place lists n right → SeenWithin place lists n left := by
  induction lists with
  | nil => exact List.Pairwise.nil
  | cons list lists ih =>
      have hfirst : ∀ left ∈ firstBy key list, ∀ right : α, ∀ n,
          SeenWithin place (list :: lists) n right → SeenWithin place (list :: lists) n left := by
        rintro left hleft right n ⟨other, hother, -⟩
        cases n with
        | zero => exact absurd hother List.not_mem_nil
        | succ n =>
            exact ⟨list, List.mem_cons_self, left, (firstBy_sublist _ _).subset hleft, rfl⟩
      rw [List.flatten_cons, firstBy_append, List.pairwise_append]
      refine ⟨?_, ?_, fun left hleft right _ => hfirst left hleft right⟩
      · exact List.Pairwise.imp_of_mem (fun {left right} hleft _ _ => hfirst left hleft right)
          (List.pairwise_of_forall fun _ _ => trivial)
      · refine (ih.filter _).imp_of_mem ?_
        rintro left right - hright hlater n ⟨list', hlist', other, hother, hsame⟩
        cases n with
        | zero => exact absurd hlist' List.not_mem_nil
        | succ n =>
            rcases List.mem_cons.mp hlist' with rfl | hlist'
            · -- The right one is not of the first round, whose keys are filtered out.
              refine absurd ?_ (of_decide_eq_true (List.mem_filter.mp hright).2)
              exact hplace _ _ hsame ▸ List.mem_map_of_mem hother
            · obtain ⟨found, hfound, hseen⟩ := hlater n ⟨list', hlist', other, hother, hsame⟩
              exact ⟨found, List.mem_cons_of_mem _ hfound, hseen⟩

end Order

end RoundRobin
