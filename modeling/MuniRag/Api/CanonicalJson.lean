import MuniRag.Lib.JsonOrder

/-!
# The canonical text of a request

`canonicalJson`, of which the four handlers each have a copy: every object is rebuilt
with its entries sorted by `localeCompare`, and the result is printed.  Its digest
decides whether a retry under an idempotency key carries the same request.

`localeCompare` is a parameter with what the language promises of it, a total preorder.
It is no order: strings that are canonically equivalent compare equal.  The sort is
stable, so entries under such keys stay in the order the client sent, and the text of
a request is independent of that order exactly when no object of the request has two
such keys (`canonicalJson_iff`).
-/

namespace CanonicalJson

open Json

/-- `String.prototype.localeCompare`, a consistent comparator. -/
structure Collation where
  localeCompare : JsString → JsString → Ordering
  swap : ∀ left right, localeCompare right left = (localeCompare left right).swap
  trans : ∀ left middle right, localeCompare left middle ≠ .gt →
    localeCompare middle right ≠ .gt → localeCompare left right ≠ .gt

section Text

variable {ν : Type} (collation : Collation) (numbers : NumberText ν)

/-- `.sort(([left], [right]) => left.localeCompare(right))`, which is stable. -/
def sortEntries {α : Type} (entries : List (JsString × α)) : List (JsString × α) :=
  entries.insertionSort fun left right => collation.localeCompare left.1 right.1 ≠ .gt

/-- `Object.fromEntries(Object.entries(item).sort(…))`, on the entries of an object. -/
def rebuild {α : Type} (entries : List (JsString × α)) : List (JsString × α) :=
  ownOrder (sortEntries collation (ownOrder entries))

mutual

/-- `normalize`.  The values are normalised before the entries are sorted: the sort
reads the keys only (`normalize_object`). -/
def normalize : Value ν → Value ν
  | .array items => .array (normalizeItems items)
  | .object entries => .object (rebuild collation (normalizeEntries entries))
  | item => item

def normalizeItems : List (Value ν) → List (Value ν)
  | [] => []
  | item :: items => normalize item :: normalizeItems items

def normalizeEntries : List (JsString × Value ν) → List (JsString × Value ν)
  | [] => []
  | (key, nested) :: entries => (key, normalize nested) :: normalizeEntries entries

end

def canonicalJson (value : Value ν) : JsString :=
  stringify numbers (normalize collation value)

theorem normalizeItems_eq (items : List (Value ν)) :
    normalizeItems collation items = items.map (normalize collation) := by
  induction items with
  | nil => rfl
  | cons item items ih => rw [normalizeItems, ih, List.map_cons]

theorem normalizeEntries_eq (entries : List (JsString × Value ν)) :
    normalizeEntries collation entries = entries.map (Prod.map id (normalize collation)) := by
  induction entries with
  | nil => rfl
  | cons entry entries ih => rw [normalizeEntries, ih, List.map_cons, Prod.map, id]

theorem sortEntries_map {α β : Type} (f : α → β) (entries : List (JsString × α)) :
    sortEntries collation (entries.map (Prod.map id f)) =
      (sortEntries collation entries).map (Prod.map id f) := by
  have hsort := List.map_insertionSort
    (fun left right : JsString × α => collation.localeCompare left.1 right.1 ≠ .gt)
    (fun left right : JsString × β => collation.localeCompare left.1 right.1 ≠ .gt)
    (Prod.map id f) entries fun a _ b _ => Iff.rfl
  exact hsort.symm

/-- The order of the source: the entries are sorted, then each value is normalised. -/
theorem normalize_object (entries : List (JsString × Value ν)) :
    normalize collation (.object entries) =
      .object (ownOrder ((sortEntries collation (ownOrder entries)).map
        (Prod.map id (normalize collation)))) := by
  rw [normalize, rebuild, normalizeEntries_eq, ownOrder_map, sortEntries_map]

theorem normalize_object_map (entries : List (JsString × Value ν)) :
    normalize collation (.object entries) =
      .object (rebuild collation (entries.map (Prod.map id (normalize collation)))) := by
  rw [normalize, normalizeEntries_eq]

theorem normalize_array (items : List (Value ν)) :
    normalize collation (.array items) = .array (items.map (normalize collation)) := by
  rw [normalize, normalizeItems_eq]

end Text

/-! ## Rebuilt objects -/

section Rebuild

variable {α : Type} {collation : Collation}

theorem rebuild_perm (entries : List (JsString × α)) :
    (rebuild collation entries).Perm entries :=
  (ownOrder_perm _).trans ((List.perm_insertionSort _ _).trans (ownOrder_perm _))

/-- No two keys other than array indices compare equal. -/
def Separates (collation : Collation) (keys : List JsString) : Prop :=
  keys.Pairwise fun left right => isArrayIndex left = false → isArrayIndex right = false →
    collation.localeCompare left right ≠ .eq

theorem localeCompare_total (left right : JsString) :
    collation.localeCompare left right ≠ .gt ∨ collation.localeCompare right left ≠ .gt := by
  rw [collation.swap left right]
  cases collation.localeCompare left right <;> simp

theorem localeCompare_antisymm {left right : JsString}
    (hle : collation.localeCompare left right ≠ .gt)
    (hge : collation.localeCompare right left ≠ .gt) :
    collation.localeCompare left right = .eq := by
  rw [collation.swap left right] at hge
  cases hcompare : collation.localeCompare left right with
  | lt => simp [hcompare] at hge
  | eq => rfl
  | gt => exact absurd hcompare hle

theorem localeCompare_comm {left right : JsString}
    (h : collation.localeCompare left right = .eq) :
    collation.localeCompare right left = .eq := by
  rw [collation.swap left right, h]
  rfl

theorem localeCompare_refl (key : JsString) : collation.localeCompare key key = .eq := by
  have htotal : collation.localeCompare key key ≠ .gt ∨ collation.localeCompare key key ≠ .gt :=
    localeCompare_total key key
  rcases htotal with h | h
  · exact localeCompare_antisymm h h
  · exact localeCompare_antisymm h h

/-- Separated keys that compare equal are equal. -/
theorem key_eq_of_compare {keys : List JsString} (hseparates : Separates collation keys)
    {left right : JsString} (hleft : left ∈ keys) (hright : right ∈ keys)
    (hplain : isArrayIndex left = false) (hplain' : isArrayIndex right = false)
    (h : collation.localeCompare left right = .eq) : left = right := by
  by_contra hne
  have hsymm : Std.Symm fun a b => isArrayIndex a = false → isArrayIndex b = false →
      collation.localeCompare a b ≠ .eq :=
    ⟨fun a b hab hb ha hba => hab ha hb (localeCompare_comm hba)⟩
  exact hseparates.forall hleft hright hne hplain hplain' h

theorem pairwise_sortEntries (entries : List (JsString × α)) :
    (sortEntries collation entries).Pairwise
      fun left right => collation.localeCompare left.1 right.1 ≠ .gt := by
  have htotal : Std.Total fun left right : JsString × α =>
      collation.localeCompare left.1 right.1 ≠ .gt := ⟨fun a b => localeCompare_total a.1 b.1⟩
  have htrans : IsTrans (JsString × α) fun left right =>
      collation.localeCompare left.1 right.1 ≠ .gt :=
    ⟨fun a b c => collation.trans a.1 b.1 c.1⟩
  exact List.pairwise_insertionSort _ entries

/-- **Separated keys are rebuilt in one order.** -/
theorem rebuild_congr {entries entries' : List (JsString × α)} (hperm : entries.Perm entries')
    (hkeys : (entries.map (·.1)).Nodup) (hseparates : Separates collation (entries.map (·.1))) :
    rebuild collation entries = rebuild collation entries' := by
  have hsorted : ∀ l : List (JsString × α), (sortEntries collation (ownOrder l)).Perm l := by
    intro l
    exact (List.perm_insertionSort _ _).trans (ownOrder_perm l)
  have hboth : (sortEntries collation (ownOrder entries)).Perm
      (sortEntries collation (ownOrder entries')) :=
    (hsorted entries).trans (hperm.trans (hsorted entries').symm)
  have hnodup : ((sortEntries collation (ownOrder entries)).map (·.1)).Nodup :=
    ((hsorted entries).map _).nodup_iff.mpr hkeys
  refine ownOrder_congr hboth hnodup ?_
  -- the other keys are sorted in both, and no two of them are tied
  refine List.Perm.eq_of_pairwise ?_ ((pairwise_sortEntries _).filter _)
    ((pairwise_sortEntries _).filter _) (hboth.filter _)
  intro a b ha hb hab hba
  obtain ⟨hmem, hplain⟩ := List.mem_filter.mp ha
  obtain ⟨hmem', hplain'⟩ := List.mem_filter.mp hb
  have ha' : a ∈ entries := (hsorted entries).mem_iff.mp hmem
  have hb' : b ∈ entries := hperm.mem_iff.mpr ((hsorted entries').mem_iff.mp hmem')
  have hkey : a.1 = b.1 := key_eq_of_compare hseparates (List.mem_map_of_mem ha')
    (List.mem_map_of_mem hb') (by simpa using hplain) (by simpa using hplain')
    (localeCompare_antisymm hab hba)
  exact List.inj_on_of_nodup_map hkeys ha' hb' hkey

/-- The sort is stable: tied entries stay in their order. -/
theorem rebuild_tie {a b : JsString × α} {entries : List (JsString × α)}
    (h : [a, b].Sublist entries) (ha : isArrayIndex a.1 = false) (hb : isArrayIndex b.1 = false)
    (htie : collation.localeCompare a.1 b.1 = .eq) :
    [a, b].Sublist (rebuild collation entries) := by
  have hplain : ∀ entry ∈ [a, b], isArrayIndex entry.1 = false := by
    intro entry hentry
    simp only [List.mem_cons, List.not_mem_nil, or_false] at hentry
    rcases hentry with rfl | rfl
    · exact ha
    · exact hb
  have hle : collation.localeCompare a.1 b.1 ≠ .gt := by simp [htie]
  have hsort := List.pair_sublist_insertionSort
    (r := fun left right : JsString × α => collation.localeCompare left.1 right.1 ≠ .gt)
    hle (sublist_ownOrder h hplain)
  exact sublist_ownOrder hsort hplain

theorem tie_order {a b : JsString × α} {entries : List (JsString × α)}
    (hkeys : (entries.map (·.1)).Nodup) (hab : [a, b].Sublist entries)
    (hba : [b, a].Sublist entries) : False := by
  have hnodup : entries.Nodup := hkeys.of_map
  induction entries with
  | nil => cases hab
  | cons entry entries ih =>
      obtain ⟨hnotin, htail⟩ := List.nodup_cons.mp hnodup
      cases hab with
      | cons _ hab =>
          cases hba with
          | cons _ hba => exact ih (List.nodup_cons.mp hkeys).2 hab hba htail
          | cons_cons _ hba => exact hnotin (hab.subset (by simp))
      | cons_cons _ hab =>
          cases hba with
          | cons _ hba => exact hnotin (hba.subset (by simp))
          | cons_cons _ hba => exact hnotin (hba.subset (by simp))

end Rebuild

/-! ## Which values have one text -/

section Canonical

variable {ν : Type} {collation : Collation} {numbers : NumberText ν}

theorem canonicalJson_eq_iff {x y : Value ν} :
    canonicalJson collation numbers x = canonicalJson collation numbers y ↔
      normalize collation x = normalize collation y :=
  stringify_injective.eq_iff

/-- The values of two objects with one text, key by key. -/
theorem normalize_entries {entries entries' : List (JsString × Value ν)}
    (h : normalize collation (.object entries) = normalize collation (.object entries')) :
    (entries.map (Prod.map id (normalize collation))).Perm
      (entries'.map (Prod.map id (normalize collation))) := by
  rw [normalize_object_map, normalize_object_map, Value.object.injEq] at h
  have hright : (rebuild collation (entries'.map (Prod.map id (normalize collation)))).Perm
      (entries'.map (Prod.map id (normalize collation))) := rebuild_perm _
  rw [← h] at hright
  exact (rebuild_perm _).symm.trans hright

theorem keys_map {α β : Type} (f : α → β) (entries : List (JsString × α)) :
    (entries.map (Prod.map id f)).map (·.1) = entries.map (·.1) := by
  rw [List.map_map]
  rfl

/-- **One text, one value.** -/
theorem same_of_normalize {x y : Value ν} (h : normalize collation x = normalize collation y) :
    Same x y := by
  induction x using Value.induction generalizing y with
  | null | bool b | number n | string s => cases y <;> simp_all [normalize, Same]
  | array items ih =>
      cases y with
      | array items' =>
          rw [normalize_array, normalize_array, Value.array.injEq] at h
          rw [same_array]
          induction items generalizing items' with
          | nil =>
              cases items' with
              | nil => exact .nil
              | cons item' items' => cases h
          | cons item items ihitems =>
              cases items' with
              | nil => cases h
              | cons item' items' =>
                  rw [List.map_cons, List.map_cons] at h
                  obtain ⟨hhead, htail⟩ := List.cons.inj h
                  rw [List.forall_mem_cons] at ih
                  exact .cons (ih.1 hhead) (ihitems ih.2 items' htail)
      | _ => simp [normalize] at h
  | object entries ih =>
      cases y with
      | object entries' =>
          have hperm := normalize_entries h
          rw [same_object]
          constructor
          · have hkeys := hperm.map (·.1)
            rwa [keys_map, keys_map] at hkeys
          · intro entry hentry
            have hmem := hperm.mem_iff.mp (List.mem_map_of_mem hentry)
            obtain ⟨other, hother, hsame⟩ := List.mem_map.mp hmem
            obtain ⟨hkey, hvalue⟩ := Prod.mk.inj hsame
            exact ⟨other, hother, hkey, ih entry hentry hvalue.symm⟩
      | _ => simp [normalize] at h

/-- **Separated keys: the same value has one text.** -/
theorem normalize_of_same {x y : Value ν} (hx : x.EveryObject List.Nodup)
    (hseparates : x.EveryObject (Separates collation)) (h : Same x y) :
    normalize collation x = normalize collation y := by
  induction x using Value.induction generalizing y with
  | null | bool b | number n | string s => cases y <;> simp_all [normalize, Same]
  | array items ih =>
      obtain ⟨items', rfl⟩ := same_array_left h
      rw [everyObject_array] at hx hseparates
      rw [same_array] at h
      rw [normalize_array, normalize_array]
      congr 1
      induction h with
      | nil => rfl
      | cons hhead htail ihtail =>
          rw [List.map_cons, List.map_cons]
          rw [List.forall_mem_cons] at ih hx hseparates
          rw [ih.1 hx.1 hseparates.1 hhead, ihtail ih.2 hx.2 hseparates.2]
  | object entries ih =>
      obtain ⟨entries', rfl⟩ := same_object_left h
      rw [everyObject_object] at hx hseparates
      obtain ⟨hkeys, hvalues⟩ := same_object.mp h
      rw [normalize_object_map, normalize_object_map]
      congr 1
      have hnodup : ((entries.map (Prod.map id (normalize collation))).map (·.1)).Nodup := by
        rw [keys_map]
        exact hx.1
      refine rebuild_congr ?_ hnodup (by rw [keys_map]; exact hseparates.1)
      -- each entry has its match, and both objects have as many entries
      have hsubset : entries.map (Prod.map id (normalize collation)) ⊆
          entries'.map (Prod.map id (normalize collation)) := by
        intro image himage
        obtain ⟨entry, hentry, rfl⟩ := List.mem_map.mp himage
        obtain ⟨other, hother, hkey, hsame⟩ := hvalues entry hentry
        have hvalue := ih entry hentry (hx.2 entry hentry) (hseparates.2 entry hentry) hsame
        refine List.mem_map.mpr ⟨other, hother, ?_⟩
        rw [Prod.map, Prod.map, ← hvalue, id, id, hkey]
      have hlength : entries'.length ≤ entries.length := by
        have hsame := hkeys.length_eq
        rw [List.length_map, List.length_map] at hsame
        omega
      refine (List.subperm_of_subset hnodup.of_map hsubset).perm_of_length_le ?_
      rw [List.length_map, List.length_map]
      exact hlength

/-- **Tied keys: the same value has two texts.** -/
theorem exists_same_of_tied {x : Value ν} (hx : x.EveryObject List.Nodup)
    (htied : ¬ x.EveryObject (Separates collation)) :
    ∃ y : Value ν, y.EveryObject List.Nodup ∧ Same x y ∧
      normalize collation x ≠ normalize collation y := by
  induction x using Value.induction with
  | null | bool b | number n | string s => exact absurd trivial htied
  | array items ih =>
      rw [everyObject_array] at hx htied
      push Not at htied
      obtain ⟨item, hitem, htied⟩ := htied
      obtain ⟨other, hother, hsame, hdiffer⟩ := ih item hitem (hx item hitem) htied
      obtain ⟨before, after, rfl⟩ := List.append_of_mem hitem
      refine ⟨.array (before ++ other :: after), ?_, same_array_replace hsame, ?_⟩
      · rw [everyObject_array]
        intro v hv
        simp only [List.mem_append, List.mem_cons] at hv
        rcases hv with hv | rfl | hv
        · exact hx v (by simp [hv])
        · exact hother
        · exact hx v (by simp [hv])
      · intro hnormal
        rw [normalize_array, normalize_array, Value.array.injEq, List.map_append,
          List.map_append, List.append_cancel_left_eq, List.map_cons, List.map_cons] at hnormal
        exact hdiffer (List.cons.inj hnormal).1
  | object entries ih =>
      rw [everyObject_object] at hx htied
      obtain ⟨hnodup, hvalues⟩ := hx
      by_cases hown : Separates collation (entries.map (·.1))
      · -- the tie is in the value of an entry
        have hnested : ∃ entry ∈ entries, ¬ entry.2.EveryObject (Separates collation) := by
          by_contra hnone
          push Not at hnone
          exact htied ⟨hown, hnone⟩
        obtain ⟨⟨key, value⟩, hentry, hnested⟩ := hnested
        obtain ⟨other, hother, hsame, hdiffer⟩ := ih _ hentry (hvalues _ hentry) hnested
        obtain ⟨before, after, rfl⟩ := List.append_of_mem hentry
        refine ⟨.object (before ++ (key, other) :: after), ?_, same_object_replace hsame, ?_⟩
        · rw [everyObject_object]
          refine ⟨by simpa using hnodup, ?_⟩
          intro entry hmem
          simp only [List.mem_append, List.mem_cons] at hmem
          rcases hmem with hmem | rfl | hmem
          · exact hvalues entry (by simp [hmem])
          · exact hother
          · exact hvalues entry (by simp [hmem])
        · intro hnormal
          have hperm := normalize_entries hnormal
          rw [List.map_append, List.map_append, List.map_cons, List.map_cons,
            List.perm_append_left_iff] at hperm
          rcases List.mem_cons.mp (hperm.mem_iff.mp List.mem_cons_self) with hsame | hafter
          · exact hdiffer (Prod.mk.inj hsame).2
          · -- the key would stand in the object twice
            obtain ⟨entry, hafter, hkey⟩ := List.mem_map.mp hafter
            have hkey : entry.1 = key := (Prod.mk.inj hkey).1
            rw [List.map_append, List.map_cons] at hnodup
            have hnotin := (List.nodup_cons.mp (List.nodup_append.mp hnodup).2.1).1
            exact hnotin (List.mem_map.mpr ⟨entry, hafter, hkey⟩)
      · -- two keys of this object are tied: turn the object around
        rw [Separates, List.pairwise_iff_forall_sublist] at hown
        push Not at hown
        obtain ⟨left, right, htied, hleft, hright, htie⟩ := hown
        obtain ⟨pair, hpair, hkeys⟩ := List.sublist_map_iff.mp htied
        have htwo : pair.length = 2 := by
          rw [← List.length_map (f := (·.1)), ← hkeys]
          rfl
        obtain ⟨a, b, rfl⟩ := List.length_eq_two.mp htwo
        simp only [List.map_cons, List.map_nil, List.cons.injEq, and_true] at hkeys
        obtain ⟨rfl, rfl⟩ := hkeys
        refine ⟨.object entries.reverse, ?_, same_object_perm entries.reverse_perm.symm, ?_⟩
        · rw [everyObject_object]
          refine ⟨?_, fun entry hentry => hvalues entry (List.mem_reverse.mp hentry)⟩
          rw [List.map_reverse]
          exact List.nodup_reverse.mpr hnodup
        · intro hnormal
          rw [normalize_object_map, normalize_object_map, Value.object.injEq] at hnormal
          have hback : [b, a].Sublist entries.reverse := hpair.reverse
          have hab := rebuild_tie (hpair.map (Prod.map id (normalize collation))) hleft hright htie
          have hba := rebuild_tie (hback.map (Prod.map id (normalize collation))) hright hleft
            (localeCompare_comm htie)
          rw [← hnormal] at hba
          refine tie_order ?_ hab hba
          rw [((rebuild_perm _).map _).nodup_iff, keys_map]
          exact hnodup

/-- **A request has one text exactly when no object of it has two tied keys**: then, and
only then, its text is the text of the values that are the same up to key order, and of
no others. -/
theorem canonicalJson_iff (collation : Collation) (numbers : NumberText ν) (x : Parsed ν) :
    (∀ y : Parsed ν, canonicalJson collation numbers x.value =
        canonicalJson collation numbers y.value ↔ Same x.value y.value) ↔
      x.value.EveryObject (Separates collation) := by
  constructor
  · intro hcanonical
    by_contra htied
    obtain ⟨y, hy, hsame, hdiffer⟩ := exists_same_of_tied x.distinct htied
    exact hdiffer (canonicalJson_eq_iff.mp ((hcanonical ⟨y, hy⟩).mpr hsame))
  · intro hseparates y
    rw [canonicalJson_eq_iff]
    exact ⟨same_of_normalize, normalize_of_same x.distinct hseparates⟩

end Canonical

/-! ## Two spellings of one key -/

/-- A letter `e` followed by the combining acute accent is read as `é`. -/
def composed : JsString → JsString
  | [] => []
  | [u] => [u]
  | u :: v :: rest =>
      if u = 0x65 ∧ v = 0x301 then 0xe9 :: composed rest else u :: composed (v :: rest)

/-- A collation by code units in which both spellings of `é` are equivalent. -/
def sampleCollation : Collation where
  localeCompare left right := compare (composed left) (composed right)
  swap _ _ := Std.OrientedCmp.eq_swap
  trans left middle right hleft hright := by
    simp only [ne_eq, Ordering.ne_gt_iff_isLE] at hleft hright ⊢
    exact Std.TransCmp.isLE_trans hleft hright

def digitText : NumberText (Fin 10) where
  text d := [0x30 + UInt16.ofNat d.val]
  injective := by decide
  units d u hu := by
    rw [List.mem_singleton.mp hu]
    clear hu
    revert d
    decide
  nonempty := by decide

/-- `{"é": 1, "é": 2}`, the keys spelt with one unit and with two. -/
def composedFirst : Parsed (Fin 10) where
  value := .object [([0xe9], .number 1), ([0x65, 0x301], .number 2)]
  distinct := by simp [Value.EveryObject, everyEntry]

/-- The same object as another client sends it. -/
def composedLast : Parsed (Fin 10) where
  value := .object [([0x65, 0x301], .number 2), ([0xe9], .number 1)]
  distinct := by simp [Value.EveryObject, everyEntry]

/-- The two spellings keep the order the client sent. -/
theorem canonicalJson_order :
    ¬ (canonicalJson sampleCollation digitText composedFirst.value =
        canonicalJson sampleCollation digitText composedLast.value ↔
      Same composedFirst.value composedLast.value) := by
  have hsame : Same composedFirst.value composedLast.value :=
    same_object_perm (List.Perm.swap _ _ _)
  have hdiffer : canonicalJson sampleCollation digitText composedFirst.value ≠
      canonicalJson sampleCollation digitText composedLast.value := by
    decide +kernel
  exact fun h => hdiffer (h.mpr hsame)

end CanonicalJson
