import Mathlib.Data.List.Sort
import MuniRag.Lib.Json

/-!
# JSON values up to the order of their keys

Two JSON values are the same up to the order of object keys when their objects have
the same keys and the same value under each of them, all the way down (`Same`).

A JavaScript object keeps its keys in an order of its own: the array indices first,
ascending, then the other keys in the order they were added (`ownOrder`).
-/

namespace Json

section Values

variable {ν : Type}

mutual

/-- Every object inside a value has keys that satisfy `P`. -/
def Value.EveryObject (P : List JsString → Prop) : Value ν → Prop
  | .null | .bool _ | .number _ | .string _ => True
  | .array items => everyItem P items
  | .object entries => P (entries.map (·.1)) ∧ everyEntry P entries

def everyItem (P : List JsString → Prop) : List (Value ν) → Prop
  | [] => True
  | item :: items => item.EveryObject P ∧ everyItem P items

def everyEntry (P : List JsString → Prop) : List (JsString × Value ν) → Prop
  | [] => True
  | (_, value) :: entries => value.EveryObject P ∧ everyEntry P entries

end

theorem everyItem_iff {P : List JsString → Prop} {items : List (Value ν)} :
    everyItem P items ↔ ∀ item ∈ items, item.EveryObject P := by
  induction items with
  | nil => simp [everyItem]
  | cons item items ih => simp [everyItem, ih]

theorem everyEntry_iff {P : List JsString → Prop} {entries : List (JsString × Value ν)} :
    everyEntry P entries ↔ ∀ entry ∈ entries, entry.2.EveryObject P := by
  induction entries with
  | nil => simp [everyEntry]
  | cons entry entries ih => simp [everyEntry, ih]

theorem everyObject_array {P : List JsString → Prop} {items : List (Value ν)} :
    (Value.array items).EveryObject P ↔ ∀ item ∈ items, item.EveryObject P := by
  rw [Value.EveryObject, everyItem_iff]

theorem everyObject_object {P : List JsString → Prop} {entries : List (JsString × Value ν)} :
    (Value.object entries).EveryObject P ↔
      P (entries.map (·.1)) ∧ ∀ entry ∈ entries, entry.2.EveryObject P := by
  rw [Value.EveryObject, everyEntry_iff]

/-- A JSON value as `JSON.parse` gives it: no object has a key twice. -/
structure Parsed (ν : Type) where
  value : Value ν
  distinct : value.EveryObject List.Nodup

mutual

/-- Equal up to the order of object keys. -/
def Same : Value ν → Value ν → Prop
  | .null, .null => True
  | .bool b, .bool c => b = c
  | .number n, .number m => n = m
  | .string s, .string t => s = t
  | .array items, .array items' => sameItems items items'
  | .object entries, .object entries' =>
      (entries.map (·.1)).Perm (entries'.map (·.1)) ∧ sameEntries entries entries'
  | _, _ => False

def sameItems : List (Value ν) → List (Value ν) → Prop
  | [], [] => True
  | item :: items, item' :: items' => Same item item' ∧ sameItems items items'
  | _, _ => False

/-- Every entry has one with its key and the same value among the others. -/
def sameEntries : List (JsString × Value ν) → List (JsString × Value ν) → Prop
  | [], _ => True
  | (key, value) :: entries, entries' =>
      (∃ other ∈ entries', other.1 = key ∧ Same value other.2) ∧ sameEntries entries entries'

end

theorem sameItems_iff {items items' : List (Value ν)} :
    sameItems items items' ↔ List.Forall₂ Same items items' := by
  induction items generalizing items' with
  | nil => cases items' <;> simp [sameItems]
  | cons item items ih =>
      cases items' with
      | nil => simp [sameItems]
      | cons item' items' => simp [sameItems, ih]

theorem sameEntries_iff {entries entries' : List (JsString × Value ν)} :
    sameEntries entries entries' ↔
      ∀ entry ∈ entries, ∃ other ∈ entries', other.1 = entry.1 ∧ Same entry.2 other.2 := by
  induction entries with
  | nil => simp [sameEntries]
  | cons entry entries ih => rw [sameEntries, ih, List.forall_mem_cons]

theorem same_array {items items' : List (Value ν)} :
    Same (.array items) (.array items') ↔ List.Forall₂ Same items items' := by
  rw [Same, sameItems_iff]

theorem same_object {entries entries' : List (JsString × Value ν)} :
    Same (.object entries) (.object entries') ↔
      (entries.map (·.1)).Perm (entries'.map (·.1)) ∧
        ∀ entry ∈ entries, ∃ other ∈ entries', other.1 = entry.1 ∧ Same entry.2 other.2 := by
  rw [Same, sameEntries_iff]

theorem Same.refl (v : Value ν) : Same v v := by
  induction v using Value.induction with
  | null => trivial
  | bool b => rfl
  | number n => rfl
  | string s => rfl
  | array items ih =>
      rw [same_array, List.forall₂_same]
      exact ih
  | object entries ih =>
      rw [same_object]
      exact ⟨.refl _, fun entry hentry => ⟨entry, hentry, rfl, ih entry hentry⟩⟩

theorem same_array_left {items : List (Value ν)} {w : Value ν} (h : Same (.array items) w) :
    ∃ items', w = .array items' := by
  cases w with
  | array items' => exact ⟨items', rfl⟩
  | _ => exact h.elim

theorem same_object_left {entries : List (JsString × Value ν)} {w : Value ν}
    (h : Same (.object entries) w) : ∃ entries', w = .object entries' := by
  cases w with
  | object entries' => exact ⟨entries', rfl⟩
  | _ => exact h.elim

/-- One item replaced by one that is the same. -/
theorem same_array_replace {before after : List (Value ν)} {v w : Value ν} (h : Same v w) :
    Same (.array (before ++ v :: after)) (.array (before ++ w :: after)) := by
  rw [same_array]
  have hrefl : ∀ items : List (Value ν), List.Forall₂ Same items items := by
    intro items
    exact List.forall₂_same.mpr fun item _ => Same.refl item
  exact List.rel_append (hrefl before) (.cons h (hrefl after))

/-- One value replaced by one that is the same. -/
theorem same_object_replace {before after : List (JsString × Value ν)} {key : JsString}
    {v w : Value ν} (h : Same v w) :
    Same (.object (before ++ (key, v) :: after)) (.object (before ++ (key, w) :: after)) := by
  rw [same_object]
  refine ⟨by simp, ?_⟩
  intro entry hentry
  simp only [List.mem_append, List.mem_cons] at hentry ⊢
  rcases hentry with hentry | rfl | hentry
  · exact ⟨entry, .inl hentry, rfl, Same.refl _⟩
  · exact ⟨(key, w), .inr (.inl rfl), rfl, h⟩
  · exact ⟨entry, .inr (.inr hentry), rfl, Same.refl _⟩

theorem same_object_perm {entries entries' : List (JsString × Value ν)}
    (h : entries.Perm entries') : Same (.object entries) (.object entries') := by
  rw [same_object]
  exact ⟨h.map _, fun entry hentry => ⟨entry, h.mem_iff.mp hentry, rfl, Same.refl _⟩⟩

end Values

/-! ## The own order of keys -/

/-- The number that a text of decimal digits denotes. -/
def decimalValue (s : JsString) : Nat :=
  s.foldl (fun n u => 10 * n + (u.toNat - 0x30)) 0

def decimalText (n : Nat) : JsString := (Nat.toDigits 10 n).flatMap utf16

/-- The array indices: the texts of the numbers below `2 ^ 32 - 1`. -/
def isArrayIndex (key : JsString) : Bool :=
  decimalText (decimalValue key) == key && decide (decimalValue key < 4294967295)

theorem decimalValue_inj {a b : JsString} (ha : isArrayIndex a = true)
    (hb : isArrayIndex b = true) (h : decimalValue a = decimalValue b) : a = b := by
  simp only [isArrayIndex, Bool.and_eq_true, beq_iff_eq] at ha hb
  rw [← ha.1, ← hb.1, h]

section OwnOrder

variable {α : Type}

/-- Array indices ascending, then the other keys in the order they were added. -/
def ownOrder (entries : List (JsString × α)) : List (JsString × α) :=
  (entries.filter (isArrayIndex ·.1)).insertionSort
      (fun a b => decimalValue a.1 ≤ decimalValue b.1) ++
    entries.filter (!isArrayIndex ·.1)

theorem ownOrder_perm (entries : List (JsString × α)) : (ownOrder entries).Perm entries :=
  ((List.perm_insertionSort _ _).append_right _).trans (List.filter_append_perm _ _)

theorem ownOrder_map {β : Type} (f : α → β) (entries : List (JsString × α)) :
    ownOrder (entries.map (Prod.map id f)) = (ownOrder entries).map (Prod.map id f) := by
  have hsort : ∀ kept : List (JsString × α),
      (kept.insertionSort fun a b => decimalValue a.1 ≤ decimalValue b.1).map (Prod.map id f) =
        (kept.map (Prod.map id f)).insertionSort
          fun a b => decimalValue a.1 ≤ decimalValue b.1 := by
    intro kept
    exact List.map_insertionSort _ _ _ kept fun a _ b _ => Iff.rfl
  rw [ownOrder, ownOrder, List.map_append, List.filter_map, List.filter_map, hsort]
  rfl

/-- The keys that are no array indices stay as they were. -/
theorem filter_ownOrder (entries : List (JsString × α)) :
    (ownOrder entries).filter (!isArrayIndex ·.1) = entries.filter (!isArrayIndex ·.1) := by
  rw [ownOrder, List.filter_append, List.filter_filter]
  have hnone : (((entries.filter (isArrayIndex ·.1)).insertionSort
      (fun a b => decimalValue a.1 ≤ decimalValue b.1)).filter (!isArrayIndex ·.1)) = [] := by
    rw [List.filter_eq_nil_iff]
    intro entry hentry
    have hindex := (List.mem_filter.mp ((List.mem_insertionSort _).mp hentry)).2
    simp only [hindex, Bool.not_true, Bool.false_eq_true, not_false_eq_true]
  simp only [hnone, Bool.and_self, List.nil_append]

theorem sublist_ownOrder {part entries : List (JsString × α)} (hpart : part.Sublist entries)
    (hplain : ∀ entry ∈ part, isArrayIndex entry.1 = false) : part.Sublist (ownOrder entries) := by
  have hkept : part.filter (!isArrayIndex ·.1) = part := by
    rw [List.filter_eq_self]
    intro entry hentry
    simp only [hplain entry hentry, Bool.not_false]
  have hfilter := hpart.filter (!isArrayIndex ·.1)
  rw [hkept] at hfilter
  exact hfilter.trans (List.sublist_append_right _ _)

/-- Objects with the same entries list their array indices alike. -/
theorem insertionSort_indices {entries entries' : List (JsString × α)}
    (hperm : entries.Perm entries') (hkeys : (entries.map (·.1)).Nodup) :
    (entries.filter (isArrayIndex ·.1)).insertionSort
        (fun a b => decimalValue a.1 ≤ decimalValue b.1) =
      (entries'.filter (isArrayIndex ·.1)).insertionSort
        (fun a b => decimalValue a.1 ≤ decimalValue b.1) := by
  have htotal : Std.Total (fun a b : JsString × α => decimalValue a.1 ≤ decimalValue b.1) :=
    ⟨fun a b => Nat.le_total _ _⟩
  have htrans : IsTrans (JsString × α) fun a b => decimalValue a.1 ≤ decimalValue b.1 :=
    ⟨fun a b c => Nat.le_trans⟩
  refine List.Perm.eq_of_pairwise ?_ (List.pairwise_insertionSort _ _)
    (List.pairwise_insertionSort _ _) ?_
  · intro a b ha hb hab hba
    obtain ⟨hmem, hindex⟩ := List.mem_filter.mp ((List.mem_insertionSort _).mp ha)
    obtain ⟨hmem', hindex'⟩ := List.mem_filter.mp ((List.mem_insertionSort _).mp hb)
    have hkey : a.1 = b.1 := decimalValue_inj hindex hindex' (Nat.le_antisymm hab hba)
    exact List.inj_on_of_nodup_map hkeys hmem (hperm.mem_iff.mpr hmem') hkey
  · exact (List.perm_insertionSort _ _).trans
      ((hperm.filter _).trans (List.perm_insertionSort _ _).symm)

theorem ownOrder_congr {entries entries' : List (JsString × α)}
    (hperm : entries.Perm entries') (hkeys : (entries.map (·.1)).Nodup)
    (hplain : entries.filter (!isArrayIndex ·.1) = entries'.filter (!isArrayIndex ·.1)) :
    ownOrder entries = ownOrder entries' := by
  rw [ownOrder, ownOrder, insertionSort_indices hperm hkeys, hplain]

end OwnOrder

end Json
