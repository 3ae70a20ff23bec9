import Mathlib.Data.List.Perm.Basic

/-!
# Rows that fall into chains

A table may be the union of chains that only grow at their newest end.
`IsChain` is one chain, newest first; `Splits P rows` says that the rows fall
into lists with the property `P`.  A step of such a table rewrites rows in place,
and may set one new row on top of the chain of another.
-/

namespace Chains

variable {α : Type*} {link : α → α → Prop} {first : α → Prop}

/-- Every element links to the next older one, and the oldest is a first one. -/
def IsChain (link : α → α → Prop) (first : α → Prop) : List α → Prop
  | [] => False
  | [a] => first a
  | a :: b :: rest => link a b ∧ IsChain link first (b :: rest)

/-- What is not the newest has a newer one that links to it. -/
theorem IsChain.linked {a x : α} {rest : List α} (h : IsChain link first (a :: rest))
    (hx : x ∈ rest) : ∃ y ∈ a :: rest, link y x := by
  induction rest generalizing a with
  | nil => cases hx
  | cons b rest ih =>
      rcases List.mem_cons.mp hx with rfl | hlater
      · exact ⟨a, List.mem_cons_self, h.1⟩
      · obtain ⟨y, hy, hlink⟩ := ih h.2 hlater
        exact ⟨y, List.mem_cons_of_mem _ hy, hlink⟩

/-- The newest element may change as long as its links do not. -/
theorem IsChain.replace {a b : α} {rest : List α} (h : IsChain link first (a :: rest))
    (hfirst : first a → first b) (hlink : ∀ x, link a x → link b x) :
    IsChain link first (b :: rest) := by
  cases rest with
  | nil => exact hfirst h
  | cons x rest => exact ⟨hlink x h.1, h.2⟩

theorem IsChain.push {a new : α} {rest : List α} (h : IsChain link first (a :: rest))
    (hlink : link new a) : IsChain link first (new :: a :: rest) :=
  ⟨hlink, h⟩

/-! ## Tables of chains -/

/-- The rows, in some order, are those of lists that have the property. -/
def Splits (P : List α → Prop) (rows : List α) : Prop :=
  ∃ chains : List (List α), rows.Perm chains.flatten ∧ ∀ chain ∈ chains, P chain

variable {P Q : List α → Prop} {rows : List α} {f : α → α} {current new : α}

theorem splits_nil : Splits P [] := ⟨[], .refl _, fun _ h => nomatch h⟩

/-- A row that is a chain by itself. -/
theorem Splits.add (h : Splits P rows) (hnew : P [new]) : Splits P (rows ++ [new]) := by
  obtain ⟨chains, hperm, hchains⟩ := h
  refine ⟨chains ++ [[new]], ?_, ?_⟩
  · rw [List.flatten_append]
    exact hperm.append (.refl _)
  · intro chain hchain
    rcases List.mem_append.mp hchain with hold | hadded
    · exact hchains chain hold
    · obtain rfl := List.mem_singleton.mp hadded
      exact hnew

/-- The rows of a chain are rows of the table. -/
theorem mem_of_chain {chains : List (List α)} {chain : List α}
    (hperm : rows.Perm chains.flatten) (hchain : chain ∈ chains) : ∀ x ∈ chain, x ∈ rows :=
  fun _ hx => hperm.mem_iff.mpr (List.mem_flatten.mpr ⟨chain, hchain, hx⟩)

/-- Rows rewritten in place, chain by chain. -/
theorem Splits.map (h : Splits P rows)
    (hmap : ∀ chain, P chain → (∀ x ∈ chain, x ∈ rows) → Q (chain.map f)) :
    Splits Q (rows.map f) := by
  obtain ⟨chains, hperm, hchains⟩ := h
  refine ⟨chains.map (·.map f), ?_, ?_⟩
  · rw [← List.map_flatten]
    exact hperm.map f
  · intro mapped hmapped
    obtain ⟨chain, hchain, rfl⟩ := List.mem_map.mp hmapped
    exact hmap chain (hchains chain hchain) (mem_of_chain hperm hchain)

/-- **Growth of one chain.**  Rows are rewritten in place and a new one is set on
top of the chain of `current`. -/
theorem Splits.push (h : Splits P rows) (hnodup : rows.Nodup) (hmem : current ∈ rows)
    (hother : ∀ chain, P chain → (∀ x ∈ chain, x ∈ rows) → current ∉ chain → Q (chain.map f))
    (hown : ∀ chain, P chain → (∀ x ∈ chain, x ∈ rows) → current ∈ chain →
      Q (new :: chain.map f)) :
    Splits Q (rows.map f ++ [new]) := by
  obtain ⟨chains, hperm, hchains⟩ := h
  obtain ⟨own, hown', hcurrent⟩ := List.mem_flatten.mp (hperm.mem_iff.mp hmem)
  obtain ⟨before, after, rfl⟩ := List.append_of_mem hown'
  have hmember : ∀ chain ∈ before ++ own :: after, ∀ x ∈ chain, x ∈ rows :=
    fun chain hchain => mem_of_chain hperm hchain
  -- The current row stands in one chain only.
  have hapart : ∀ chain ∈ before ++ after, current ∉ chain := by
    have hflat : (own ++ (before ++ after).flatten).Nodup := by
      refine (List.Perm.nodup_iff ?_).mp hnodup
      refine hperm.trans ?_
      simp only [List.flatten_append, List.flatten_cons]
      rw [← List.append_assoc, ← List.append_assoc]
      exact (List.perm_append_comm).append_right _
    intro chain hchain hin
    have hdisjoint := (List.nodup_append.mp hflat).2.2 current hcurrent current
    exact hdisjoint (List.mem_flatten.mpr ⟨chain, hchain, hin⟩) rfl
  refine ⟨before.map (·.map f) ++ (new :: own.map f) :: after.map (·.map f), ?_, ?_⟩
  · have hmapped : (rows.map f).Perm ((before ++ own :: after).flatten.map f) := hperm.map f
    refine ((hmapped.append_right [new]).trans List.perm_append_comm).trans ?_
    simp only [List.map_flatten, List.map_append, List.flatten_append, List.flatten_cons,
      List.cons_append, List.nil_append]
    exact List.perm_middle.symm
  · intro chain hchain
    rcases List.mem_append.mp hchain with hfirst | hrest
    · obtain ⟨old, hold, rfl⟩ := List.mem_map.mp hfirst
      have hin : old ∈ before ++ own :: after := List.mem_append_left _ hold
      exact hother old (hchains old hin) (hmember old hin) (hapart old (List.mem_append_left _ hold))
    · rcases List.mem_cons.mp hrest with rfl | hlast
      · exact hown own (hchains own hown') (hmember own hown') hcurrent
      · obtain ⟨old, hold, rfl⟩ := List.mem_map.mp hlast
        have hin : old ∈ before ++ own :: after :=
          List.mem_append_right _ (List.mem_cons_of_mem _ hold)
        exact hother old (hchains old hin) (hmember old hin)
          (hapart old (List.mem_append_right _ hold))

end Chains
