import MuniRag.Lib.JsMap

/-!
# Merging what has one key

A list of items is run through a map: an item with a new key is kept as it is, one whose key is
there is merged into what the key holds.  The keys come out in the order of their first items.
Where a merge keeps the key, the values are a normal form: merging them again changes nothing.
-/

namespace Grouping

variable {κ α : Type*} [DecidableEq κ] (keyOf : α → κ) (merge : α → α → α)

def add (grouped : JsMap κ α) (item : α) : JsMap κ α :=
  JsMap.set grouped (keyOf item) (match JsMap.get grouped (keyOf item) with
    | some existing => merge existing item
    | none => item)

def byKey (items : List α) : JsMap κ α := items.foldl (add keyOf merge) []

/-- The values, by the order of their keys. -/
def normalize (items : List α) : List α := JsMap.values (byKey keyOf merge items)

/-- A merge of two items with one key has that key. -/
def KeepsKey : Prop :=
  ∀ existing incoming, keyOf existing = keyOf incoming →
    keyOf (merge existing incoming) = keyOf existing

variable {keyOf merge} {items : List α}

theorem byKey_concat (items : List α) (last : α) :
    byKey keyOf merge (items ++ [last]) = add keyOf merge (byKey keyOf merge items) last := by
  simp [byKey]

/-! ## Keys -/

theorem keys_set (m : JsMap κ α) (key : κ) (value : α) :
    (JsMap.set m key value).map Prod.fst =
      if key ∈ m.map Prod.fst then m.map Prod.fst else m.map Prod.fst ++ [key] := by
  induction m with
  | nil => simp [JsMap.set]
  | cons entry rest ih =>
      by_cases hkey : entry.1 = key
      · simp [JsMap.set, hkey]
      · have hne : key ≠ entry.1 := fun h => hkey h.symm
        rw [JsMap.set, if_neg hkey, List.map_cons, ih, List.map_cons]
        by_cases hmem : key ∈ rest.map Prod.fst
        · rw [if_pos hmem, if_pos (List.mem_cons_of_mem _ hmem)]
        · rw [if_neg hmem, if_neg (by simpa [hne] using hmem)]
          rfl

omit [DecidableEq κ] in
theorem eraseDups_concat [BEq κ] [LawfulBEq κ] (keys : List κ) (key : κ) :
    (keys ++ [key]).eraseDups =
      if key ∈ keys then keys.eraseDups else keys.eraseDups ++ [key] := by
  rw [List.eraseDups_append]
  by_cases hmem : key ∈ keys <;> simp [List.removeAll, hmem, List.eraseDups_cons]

/-- **Order.**  The keys come in the order in which they first occur. -/
theorem keys_byKey [BEq κ] [LawfulBEq κ] (items : List α) :
    (byKey keyOf merge items).map Prod.fst = (items.map keyOf).eraseDups := by
  induction items using List.reverseRecOn with
  | nil => rfl
  | append_singleton items last ih =>
      rw [byKey_concat, add, keys_set, ih, List.map_append, List.map_singleton, eraseDups_concat]
      simp only [List.mem_eraseDups]

theorem nodup_keys_byKey (items : List α) : ((byKey keyOf merge items).map Prod.fst).Nodup := by
  induction items using List.reverseRecOn with
  | nil => exact List.nodup_nil
  | append_singleton items last ih =>
      rw [byKey_concat]
      exact JsMap.nodup_keys_set ih _ _

/-- A value has the key under which it is held. -/
theorem keyOf_byKey (hkeeps : KeepsKey keyOf merge) (items : List α) :
    ∀ entry ∈ byKey keyOf merge items, keyOf entry.2 = entry.1 := by
  induction items using List.reverseRecOn with
  | nil => exact fun entry hentry => absurd hentry List.not_mem_nil
  | append_singleton items last ih =>
      intro entry hentry
      rw [byKey_concat] at hentry
      rcases JsMap.mem_of_mem_set hentry with rfl | hentry
      · cases hget : JsMap.get (byKey keyOf merge items) (keyOf last) with
        | none => rfl
        | some existing =>
            have hexisting : keyOf existing = keyOf last := ih _ (JsMap.mem_of_get hget)
            exact (hkeeps existing last hexisting).trans hexisting
      · exact ih entry hentry

theorem map_keyOf_normalize [BEq κ] [LawfulBEq κ] (hkeeps : KeepsKey keyOf merge)
    (items : List α) :
    (normalize keyOf merge items).map keyOf = (items.map keyOf).eraseDups := by
  rw [normalize, JsMap.values, List.map_map, ← @keys_byKey κ α _ keyOf merge]
  exact List.map_congr_left (keyOf_byKey hkeeps items)

theorem get_of_mem_normalize (hkeeps : KeepsKey keyOf merge) {item : α}
    (hitem : item ∈ normalize keyOf merge items) :
    JsMap.get (byKey keyOf merge items) (keyOf item) = some item := by
  obtain ⟨entry, hentry, rfl⟩ := List.mem_map.mp hitem
  rw [keyOf_byKey hkeeps items entry hentry]
  exact JsMap.get_of_mem (nodup_keys_byKey items) hentry

/-! ## Normal forms -/

theorem byKey_of_nodup (hnodup : (items.map keyOf).Nodup) :
    byKey keyOf merge items = items.map fun item => (keyOf item, item) := by
  induction items using List.reverseRecOn with
  | nil => rfl
  | append_singleton items last ih =>
      rw [List.map_append, List.map_singleton] at hnodup
      obtain ⟨hitems, -, hapart⟩ := List.nodup_append.mp hnodup
      have hfresh : keyOf last ∉ items.map keyOf :=
        fun hmem => hapart _ hmem _ (List.mem_singleton.mpr rfl) rfl
      have hnone : JsMap.get (items.map fun item => (keyOf item, item)) (keyOf last) = none := by
        by_contra hsome
        obtain ⟨value, hvalue⟩ := Option.ne_none_iff_exists'.mp hsome
        obtain ⟨item, hitem, hentry⟩ := List.mem_map.mp (JsMap.mem_of_get hvalue)
        exact hfresh (List.mem_map.mpr ⟨item, hitem, congrArg Prod.fst hentry⟩)
      rw [byKey_concat, ih hitems, add, hnone, JsMap.set_of_get_none hnone,
        List.map_append]
      rfl

theorem normalize_of_nodup (hnodup : (items.map keyOf).Nodup) :
    normalize keyOf merge items = items := by
  rw [normalize, byKey_of_nodup hnodup, JsMap.values, List.map_map]
  exact List.map_id items

/-- **Normal form.**  Merging the values again changes nothing. -/
theorem normalize_normalize (hkeeps : KeepsKey keyOf merge) (items : List α) :
    normalize keyOf merge (normalize keyOf merge items) = normalize keyOf merge items := by
  apply normalize_of_nodup
  rw [map_keyOf_normalize hkeeps, ← @keys_byKey κ α _ keyOf merge]
  exact nodup_keys_byKey items

end Grouping
