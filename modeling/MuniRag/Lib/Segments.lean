import Mathlib.Data.List.Basic

/-!
# Joined fields

Fields that are joined with a separator are told apart only if they do not contain it: the text
has the segments of all fields one after the other (`splitOn_intercalate_fields`), and segments
can be grouped into fields in more than one way.
-/

namespace Segments

variable {α : Type*} [DecidableEq α] {sep : α} {xs ys : List α} {fields others : List (List α)}

omit [DecidableEq α] in
theorem intercalate_cons (hne : fields ≠ []) :
    [sep].intercalate (xs :: fields) = xs ++ sep :: [sep].intercalate fields := by
  rw [List.intercalate_cons_of_ne_nil hne, List.append_assoc, List.singleton_append]

omit [DecidableEq α] in
theorem intercalate_append (hne : fields ≠ []) (hothers : others ≠ []) :
    [sep].intercalate (fields ++ others) =
      [sep].intercalate fields ++ sep :: [sep].intercalate others := by
  induction fields with
  | nil => exact absurd rfl hne
  | cons field fields ih =>
      cases fields with
      | nil =>
          rw [List.singleton_append, intercalate_cons hothers, List.intercalate_singleton]
      | cons next fields =>
          have hnext : next :: fields ≠ [] := List.cons_ne_nil _ _
          have hmore : next :: fields ++ others ≠ [] := List.cons_ne_nil _ _
          rw [List.cons_append, intercalate_cons hmore, ih hnext, intercalate_cons hnext,
            List.append_assoc, List.cons_append]

/-- **Segments.**  The segments of joined fields are those of the fields. -/
theorem splitOn_intercalate_fields (hne : fields ≠ []) :
    ([sep].intercalate fields).splitOn sep = fields.flatMap (List.splitOn sep) := by
  induction fields with
  | nil => exact absurd rfl hne
  | cons field fields ih =>
      cases fields with
      | nil => simp
      | cons next fields =>
          have hnext : next :: fields ≠ [] := List.cons_ne_nil _ _
          rw [intercalate_cons hnext, List.splitOn_append_cons_self, ih hnext]
          rfl

theorem not_mem_of_mem_splitOn {segment : List α} (h : segment ∈ xs.splitOn sep) :
    sep ∉ segment := by
  induction xs generalizing segment with
  | nil =>
      rw [List.splitOn_nil, List.mem_singleton] at h
      rw [h]
      exact List.not_mem_nil
  | cons x xs ih =>
      rw [List.splitOn_cons_eq_if_modifyHead] at h
      by_cases hx : (x == sep) = true
      · rw [if_pos hx] at h
        rcases List.mem_cons.mp h with rfl | h
        · exact List.not_mem_nil
        · exact ih h
      · rw [if_neg hx] at h
        obtain ⟨first, rest, hsplit⟩ := List.exists_cons_of_ne_nil (List.splitOn_ne_nil sep xs)
        rw [hsplit, List.modifyHead_cons] at h
        rw [hsplit] at ih
        rcases List.mem_cons.mp h with rfl | h
        · intro hmem
          rcases List.mem_cons.mp hmem with rfl | hmem
          · exact hx (beq_self_eq_true _)
          · exact ih List.mem_cons_self hmem
        · exact ih (List.mem_cons_of_mem _ h)

/-- A text without the separator is its only segment. -/
theorem splitOn_eq_singleton_iff : xs.splitOn sep = [ys] ↔ xs = ys ∧ sep ∉ xs := by
  constructor
  · intro h
    have hjoin : [sep].intercalate (xs.splitOn sep) = xs := List.intercalate_splitOn sep
    rw [h, List.intercalate_singleton] at hjoin
    refine ⟨hjoin.symm, ?_⟩
    rw [← hjoin]
    exact not_mem_of_mem_splitOn (by rw [h]; exact List.mem_singleton.mpr rfl)
  · rintro ⟨rfl, hnone⟩
    exact List.splitOn_eq_singleton hnone

/-- Segments without the separator are read back. -/
theorem splitOn_intercalate (hne : fields ≠ []) (h : ∀ field ∈ fields, sep ∉ field) :
    ([sep].intercalate fields).splitOn sep = fields :=
  List.splitOn_intercalate sep h hne

omit [DecidableEq α] in
theorem mem_intercalate (hne : fields ≠ []) (hlength : fields.length ≠ 1) :
    sep ∈ [sep].intercalate fields := by
  obtain ⟨field, fields, rfl⟩ := List.exists_cons_of_ne_nil hne
  cases fields with
  | nil => exact absurd rfl hlength
  | cons next fields =>
      rw [intercalate_cons (List.cons_ne_nil _ _)]
      exact List.mem_append_right _ List.mem_cons_self

/-- A map that keeps the separator apart keeps the segments. -/
theorem splitOn_map {β : Type*} [DecidableEq β] {f : α → β} {mark : β}
    (h : ∀ x, f x = mark ↔ x = sep) :
    (xs.map f).splitOn mark = (xs.splitOn sep).map (List.map f) := by
  induction xs with
  | nil => rfl
  | cons x xs ih =>
      rw [List.map_cons, List.splitOn_cons_eq_if_modifyHead, List.splitOn_cons_eq_if_modifyHead, ih]
      by_cases hx : x = sep
      · rw [if_pos (beq_iff_eq.mpr ((h x).mpr hx)), if_pos (beq_iff_eq.mpr hx)]
        rfl
      · rw [if_neg (mt beq_iff_eq.mp (mt (h x).mp hx)), if_neg (mt beq_iff_eq.mp hx)]
        cases xs.splitOn sep <;> rfl

/-- Every element that is not the separator stands in a segment. -/
theorem mem_segment {x : α} (hx : x ∈ xs) (hsep : x ≠ sep) :
    ∃ segment ∈ xs.splitOn sep, x ∈ segment := by
  induction xs with
  | nil => exact absurd hx List.not_mem_nil
  | cons y xs ih =>
      rw [List.splitOn_cons_eq_if_modifyHead]
      by_cases hy : y = sep
      · have hmem : x ∈ xs := (List.mem_cons.mp hx).resolve_left fun h => hsep (h.trans hy)
        obtain ⟨segment, hsegment, hin⟩ := ih hmem
        rw [if_pos (beq_iff_eq.mpr hy)]
        exact ⟨segment, List.mem_cons_of_mem _ hsegment, hin⟩
      · rw [if_neg (mt beq_iff_eq.mp hy)]
        obtain ⟨first, rest, hsplit⟩ := List.exists_cons_of_ne_nil (List.splitOn_ne_nil sep xs)
        rw [hsplit] at ih ⊢
        rw [List.modifyHead_cons]
        rcases List.mem_cons.mp hx with rfl | hmem
        · exact ⟨x :: first, List.mem_cons_self, List.mem_cons_self⟩
        · obtain ⟨segment, hsegment, hin⟩ := ih hmem
          rcases List.mem_cons.mp hsegment with rfl | hsegment
          · exact ⟨y :: segment, List.mem_cons_self, List.mem_cons_of_mem _ hin⟩
          · exact ⟨segment, List.mem_cons_of_mem _ hsegment, hin⟩

end Segments
