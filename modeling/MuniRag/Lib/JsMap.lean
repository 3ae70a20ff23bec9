import Mathlib.Data.List.Basic
import Mathlib.Data.List.Induction

/-!
# Insertion-ordered maps

A JavaScript `Map` as the list of its entries in insertion order: setting a key
that is present replaces the value in its place, setting a new key appends it.
-/

/-- The entries of a `Map`, oldest key first. -/
abbrev JsMap (κ α : Type*) := List (κ × α)

namespace JsMap

variable {κ α : Type*} [DecidableEq κ]

def get (m : JsMap κ α) (key : κ) : Option α :=
  (m.find? (·.1 = key)).map Prod.snd

/-- `Map.prototype.set`. -/
def set : JsMap κ α → κ → α → JsMap κ α
  | [], key, value => [(key, value)]
  | entry :: rest, key, value =>
      if entry.1 = key then (key, value) :: rest else entry :: set rest key value

/-- `Map.prototype.delete`. -/
def delete (m : JsMap κ α) (key : κ) : JsMap κ α := m.filter (·.1 ≠ key)

def values (m : JsMap κ α) : List α := m.map Prod.snd

/-- `new Map(entries)`: later entries win. -/
def ofEntries (entries : List (κ × α)) : JsMap κ α :=
  entries.foldl (fun m entry => set m entry.1 entry.2) []

variable {m : JsMap κ α} {key : κ} {value : α}

theorem mem_of_get (h : get m key = some value) : (key, value) ∈ m := by
  obtain ⟨entry, hfind, rfl⟩ := Option.map_eq_some_iff.mp h
  have hkey : entry.1 = key := by simpa using List.find?_some hfind
  exact hkey ▸ List.mem_of_find?_eq_some hfind

/-- With distinct keys, an entry is what its key is looked up as. -/
theorem get_of_mem (h : (m.map Prod.fst).Nodup) (hmem : (key, value) ∈ m) :
    get m key = some value := by
  induction m with
  | nil => exact absurd hmem List.not_mem_nil
  | cons entry rest ih =>
      obtain ⟨hfresh, hrest⟩ := List.nodup_cons.mp h
      rcases List.mem_cons.mp hmem with rfl | hmem
      · simp [get]
      · have hne : entry.1 ≠ key := fun hkey => hfresh (hkey ▸ List.mem_map_of_mem hmem)
        have hrestGet := ih hrest hmem
        simpa [get, hne] using hrestGet

theorem get_values (h : get m key = some value) : value ∈ values m := by
  have hentry : (key, value) ∈ m := mem_of_get h
  exact List.mem_map.mpr ⟨(key, value), hentry, rfl⟩

/-- After a `set` a value is the one just set or one that was there. -/
theorem mem_values_set {v : α} (h : v ∈ values (set m key value)) : v = value ∨ v ∈ values m := by
  induction m with
  | nil => simpa [set, values] using h
  | cons entry rest ih =>
      by_cases hkey : entry.1 = key
      · simp only [set, hkey, if_true, values, List.map_cons, List.mem_cons] at h ⊢
        exact h.imp id .inr
      · simp only [set, hkey, if_false, values, List.map_cons, List.mem_cons] at h ⊢
        rcases h with rfl | h
        · exact .inr (.inl rfl)
        · exact (ih h).imp id .inr

theorem mem_values_set_self : value ∈ values (set m key value) := by
  induction m with
  | nil => simp [set, values]
  | cons entry rest ih =>
      by_cases hkey : entry.1 = key
      · simp [set, hkey, values]
      · simp only [set, hkey, if_false, values, List.map_cons, List.mem_cons]
        exact .inr ih

theorem get_cons (entry : κ × α) (rest : JsMap κ α) (key : κ) :
    get (entry :: rest) key = if entry.1 = key then some entry.2 else get rest key := by
  by_cases hkey : entry.1 = key <;> simp [get, hkey]

theorem get_set (m : JsMap κ α) (key : κ) (value : α) (other : κ) :
    get (set m key value) other = if other = key then some value else get m other := by
  induction m with
  | nil =>
      rw [set, get_cons]
      by_cases hother : other = key
      · simp [hother]
      · have hne : key ≠ other := fun h => hother h.symm
        simp [hother, hne]
  | cons entry rest ih =>
      by_cases hkey : entry.1 = key
      · by_cases hother : other = key
        · simp [set, hkey, hother, get_cons]
        · have hne : key ≠ other := fun h => hother h.symm
          simp [set, hkey, hother, get_cons, hne]
      · simp only [set, if_neg hkey, get_cons, ih]
        by_cases hentry : entry.1 = other
        · have hother : other ≠ key := fun h => hkey (hentry.trans h)
          simp [hentry, hother]
        · simp [hentry]

theorem get_delete (m : JsMap κ α) (key other : κ) :
    get (delete m key) other = if other = key then none else get m other := by
  induction m with
  | nil => simp [delete, get]
  | cons entry rest ih =>
      rw [delete] at ih ⊢
      by_cases hkey : entry.1 = key
      · rw [List.filter_cons_of_neg (by simpa using hkey), ih, get_cons]
        by_cases hother : other = key
        · simp [hother]
        · have hne : key ≠ other := fun h => hother h.symm
          simp [hother, hkey, hne]
      · rw [List.filter_cons_of_pos (by simpa using hkey), get_cons, ih, get_cons]
        by_cases hentry : entry.1 = other
        · have hother : other ≠ key := fun h => hkey (hentry.trans h)
          simp [hentry, hother]
        · simp [hentry]

/-- A new key is appended. -/
theorem set_of_get_none (h : get m key = none) (value : α) : set m key value = m ++ [(key, value)] := by
  induction m with
  | nil => rfl
  | cons entry rest ih =>
      rw [get_cons] at h
      by_cases hkey : entry.1 = key
      · simp [hkey] at h
      · rw [if_neg hkey] at h
        rw [set, if_neg hkey, ih h]
        rfl

theorem ofEntries_concat (entries : List (κ × α)) (entry : κ × α) :
    ofEntries (entries ++ [entry]) = set (ofEntries entries) entry.1 entry.2 := by
  simp [ofEntries]

/-- **Last entry.**  A map built from entries holds the last one of each key. -/
theorem get_ofEntries (entries : List (κ × α)) (key : κ) :
    get (ofEntries entries) key = (entries.reverse.find? (·.1 = key)).map Prod.snd := by
  induction entries using List.reverseRecOn with
  | nil => rfl
  | append_singleton entries entry ih =>
      rw [ofEntries_concat, get_set, List.reverse_concat]
      by_cases hkey : key = entry.1
      · simp [hkey]
      · have hne : entry.1 ≠ key := fun h => hkey h.symm
        simp [hkey, hne, ih]

theorem mem_keys_set (m : JsMap κ α) (key other : κ) (value : α) :
    other ∈ (set m key value).map Prod.fst ↔ other = key ∨ other ∈ m.map Prod.fst := by
  induction m with
  | nil => simp [set]
  | cons entry rest ih =>
      by_cases hkey : entry.1 = key
      · simp [set, hkey]
      · simp only [set, if_neg hkey, List.map_cons, List.mem_cons, ih]
        tauto

theorem nodup_keys_set {m : JsMap κ α} (h : (m.map Prod.fst).Nodup) (key : κ) (value : α) :
    ((set m key value).map Prod.fst).Nodup := by
  induction m with
  | nil => simp [set]
  | cons entry rest ih =>
      obtain ⟨hfresh, hrest⟩ := List.nodup_cons.mp h
      by_cases hkey : entry.1 = key
      · simp only [set, if_pos hkey, List.map_cons]
        exact List.nodup_cons.mpr ⟨hkey ▸ hfresh, hrest⟩
      · simp only [set, if_neg hkey, List.map_cons]
        refine List.nodup_cons.mpr ⟨fun hmem => ?_, ih hrest⟩
        rcases (mem_keys_set rest key entry.1 value).mp hmem with hsame | hmem
        · exact hkey hsame
        · exact hfresh hmem

theorem nodup_keys_ofEntries (entries : List (κ × α)) :
    ((ofEntries entries).map Prod.fst).Nodup := by
  induction entries using List.reverseRecOn with
  | nil => exact List.nodup_nil
  | append_singleton entries entry ih =>
      rw [ofEntries_concat]
      exact nodup_keys_set ih _ _

theorem mem_of_mem_set {entry : κ × α} (h : entry ∈ set m key value) :
    entry = (key, value) ∨ entry ∈ m := by
  induction m with
  | nil => simpa [set] using h
  | cons first rest ih =>
      by_cases hkey : first.1 = key
      · simp only [set, if_pos hkey, List.mem_cons] at h ⊢
        exact h.imp_right .inr
      · simp only [set, if_neg hkey, List.mem_cons] at h ⊢
        rcases h with rfl | h
        · exact .inr (.inl rfl)
        · exact (ih h).imp_right .inr

theorem mem_of_mem_ofEntries {entries : List (κ × α)} {entry : κ × α}
    (h : entry ∈ ofEntries entries) : entry ∈ entries := by
  induction entries using List.reverseRecOn with
  | nil => exact h
  | append_singleton entries last ih =>
      rw [ofEntries_concat] at h
      rcases mem_of_mem_set h with rfl | h
      · simp
      · exact List.mem_append_left _ (ih h)

/-- Where every value carries its key, looking a value up by it is looking it up in the map. -/
theorem find?_values {keyOf : α → κ} (h : ∀ entry ∈ m, keyOf entry.2 = entry.1) (key : κ) :
    (values m).find? (keyOf · = key) = get m key := by
  induction m with
  | nil => rfl
  | cons entry rest ih =>
      obtain ⟨hentry, hrest⟩ := List.forall_mem_cons.mp h
      rw [values, List.map_cons, List.find?_cons, get_cons, hentry]
      by_cases hkey : entry.1 = key
      · simp [hkey]
      · simp only [hkey, decide_false, if_false]
        exact ih hrest

end JsMap
