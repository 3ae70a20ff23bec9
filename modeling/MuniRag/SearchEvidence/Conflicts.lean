import MuniRag.SearchEvidence.Bundle

/-!
# Version conflicts

What `versionConflicts` finds in a list of candidates.  A slot is a place in a document; of
each version that has candidates there the last one represents it.  A slot is in conflict
when two of its representatives have different excerpts (`mem_versionConflicts`).
-/

namespace SearchEvidence

open Api

section Conflicts

variable {platform : Platform} {σ : Type} {candidates group : List (ClassifiedSearchCandidate σ)}
  {candidate : ClassifiedSearchCandidate σ} {key : JsString}

/-- The candidates of a slot, in the order in which they came. -/
def slotGroup (platform : Platform) (candidates : List (ClassifiedSearchCandidate σ))
    (key : JsString) : List (ClassifiedSearchCandidate σ) :=
  candidates.filter fun candidate => conflictSlot platform candidate = key

/-- The version of a candidate, in lower case. -/
abbrev versionOf (platform : Platform) (candidate : ClassifiedSearchCandidate σ) : JsString :=
  platform.toLowerCase candidate.documentVersionId

/-- The excerpt of a candidate, as conflicts compare it. -/
abbrev excerptOf (platform : Platform) (candidate : ClassifiedSearchCandidate σ) : JsString :=
  normalized platform candidate.excerpt

/-! ## Slots -/

theorem mem_slotGroup : candidate ∈ slotGroup platform candidates key ↔
    candidate ∈ candidates ∧ conflictSlot platform candidate = key := by
  rw [slotGroup, List.mem_filter, decide_eq_true_iff]

theorem slotGroup_concat (candidates : List (ClassifiedSearchCandidate σ))
    (last : ClassifiedSearchCandidate σ) (key : JsString) :
    slotGroup platform (candidates ++ [last]) key =
      if key = conflictSlot platform last then slotGroup platform candidates key ++ [last]
      else slotGroup platform candidates key := by
  unfold slotGroup
  rw [List.filter_append]
  by_cases hkey : key = conflictSlot platform last
  · simp [hkey]
  · have hother : conflictSlot platform last ≠ key := Ne.symm hkey
    simp [hkey, hother]

theorem groupBySlot_concat (candidates : List (ClassifiedSearchCandidate σ))
    (last : ClassifiedSearchCandidate σ) : groupBySlot platform (candidates ++ [last]) =
      JsMap.set (groupBySlot platform candidates) (conflictSlot platform last)
        ((JsMap.get (groupBySlot platform candidates) (conflictSlot platform last)).getD [] ++
          [last]) := by
  rw [groupBySlot, List.foldl_concat]
  rfl

theorem nodup_slots (candidates : List (ClassifiedSearchCandidate σ)) :
    ((groupBySlot platform candidates).map Prod.fst).Nodup := by
  induction candidates using List.reverseRecOn with
  | nil => exact List.nodup_nil
  | append_singleton candidates last ih =>
      rw [groupBySlot_concat]
      exact JsMap.nodup_keys_set ih _ _

/-- A slot is listed with its candidates, if it has any. -/
theorem get_groupBySlot : JsMap.get (groupBySlot platform candidates) key =
    if slotGroup platform candidates key = [] then none
    else some (slotGroup platform candidates key) := by
  induction candidates using List.reverseRecOn with
  | nil => rfl
  | append_singleton candidates last ih =>
      rw [groupBySlot_concat, JsMap.get_set, slotGroup_concat]
      by_cases hkey : key = conflictSlot platform last
      · rw [if_pos hkey, if_pos hkey, ← hkey, ih]
        by_cases hnone : slotGroup platform candidates key = []
        · simp [hnone]
        · simp [hnone]
      · rw [if_neg hkey, if_neg hkey, ih]

theorem mem_groupBySlot : (key, group) ∈ groupBySlot platform candidates ↔
    group = slotGroup platform candidates key ∧ group ≠ [] := by
  constructor
  · intro hmem
    have hget := JsMap.get_of_mem (nodup_slots candidates) hmem
    rw [get_groupBySlot] at hget
    split_ifs at hget with hnone
    obtain rfl := Option.some.inj hget
    exact ⟨rfl, hnone⟩
  · rintro ⟨rfl, hsome⟩
    refine JsMap.mem_of_get ?_
    rw [get_groupBySlot, if_neg hsome]

/-! ## The last candidates -/

/-- The values of a map of candidates are the entries of the last candidate of each key. -/
theorem mem_lastEntries {α : Type} {idOf : ClassifiedSearchCandidate σ → JsString}
    {entryOf : ClassifiedSearchCandidate σ → α} {entry : α} :
    entry ∈ JsMap.values (JsMap.ofEntries (candidates.map fun candidate =>
        (idOf candidate, entryOf candidate))) ↔
      ∃ candidate, lastWith candidates (idOf · = idOf candidate) = some candidate ∧
        entryOf candidate = entry := by
  have hget : ∀ id, JsMap.get (JsMap.ofEntries (candidates.map fun candidate =>
      (idOf candidate, entryOf candidate))) id =
        (lastWith candidates (idOf · = id)).map entryOf := by
    intro id
    rw [JsMap.get_ofEntries, ← List.map_reverse, List.find?_map, lastWith, Option.map_map]
    rfl
  constructor
  · intro hmem
    obtain ⟨⟨id, _⟩, hentry, rfl⟩ := List.mem_map.mp hmem
    have hsome := JsMap.get_of_mem (JsMap.nodup_keys_ofEntries _) hentry
    rw [hget] at hsome
    obtain ⟨candidate, hlast, hsame⟩ := Option.map_eq_some_iff.mp hsome
    have hid : idOf candidate = id := of_decide_eq_true (lastWith_some hlast).2
    exact ⟨candidate, hid ▸ hlast, hsame⟩
  · rintro ⟨candidate, hlast, rfl⟩
    refine @JsMap.get_values _ _ _ _ (idOf candidate) _ ?_
    rw [hget, hlast]
    rfl

theorem nodup_lastEntries {α : Type} {idOf : ClassifiedSearchCandidate σ → JsString}
    {entryOf : ClassifiedSearchCandidate σ → α} {keyOf : α → JsString}
    (hkey : ∀ candidate, keyOf (entryOf candidate) = idOf candidate) :
    ((JsMap.values (JsMap.ofEntries (candidates.map fun candidate =>
      (idOf candidate, entryOf candidate)))).map keyOf).Nodup := by
  have hkeys : (JsMap.values (JsMap.ofEntries (candidates.map fun candidate =>
      (idOf candidate, entryOf candidate)))).map keyOf = (JsMap.ofEntries (candidates.map
        fun candidate => (idOf candidate, entryOf candidate))).map Prod.fst := by
    rw [JsMap.values, List.map_map]
    refine List.map_congr_left fun entry hentry => ?_
    obtain ⟨candidate, -, rfl⟩ := List.mem_map.mp (JsMap.mem_of_mem_ofEntries hentry)
    exact hkey candidate
  rw [hkeys]
  exact JsMap.nodup_keys_ofEntries _

/-! ## Representatives -/

/-- The last candidate of each version represents it. -/
theorem mem_representatives : candidate ∈ representatives platform group ↔
    lastWith group (versionOf platform · = versionOf platform candidate) = some candidate := by
  rw [representatives, (List.perm_insertionSort _ _).mem_iff, mem_lastEntries]
  constructor
  · rintro ⟨candidate, hlast, rfl⟩
    exact hlast
  · exact fun hlast => ⟨candidate, hlast, rfl⟩

theorem mem_of_representative (h : candidate ∈ representatives platform group) :
    candidate ∈ group :=
  (lastWith_some (mem_representatives.mp h)).1

/-- Every version in a group is represented. -/
theorem exists_representative (h : candidate ∈ group) :
    ∃ other ∈ representatives platform group,
      versionOf platform other = versionOf platform candidate := by
  obtain ⟨other, hother⟩ := @lastWith_isSome σ group
    (versionOf platform · = versionOf platform candidate) candidate h (decide_eq_true rfl)
  have hversion : versionOf platform other = versionOf platform candidate :=
    of_decide_eq_true (lastWith_some hother).2
  refine ⟨other, mem_representatives.mpr ?_, hversion⟩
  rw [hversion]
  exact hother

/-! ## Conflicts -/

theorem nodup_unique (values : List JsString) : (unique values).Nodup := by
  induction values using List.reverseRecOn with
  | nil => exact List.nodup_nil
  | append_singleton values value ih =>
      rw [unique, List.foldl_concat, ← unique]
      by_cases hmem : value ∈ unique values
      · rw [if_pos hmem]
        exact ih
      · rw [if_neg hmem]
        exact List.nodup_append.mpr ⟨ih, List.nodup_singleton _, by
          intro other hother last hlast
          rintro rfl
          exact hmem (List.mem_singleton.mp hlast ▸ hother)⟩

theorem two_le_unique {values : List JsString} : 2 ≤ (unique values).length ↔
    ∃ first ∈ values, ∃ second ∈ values, first ≠ second := by
  constructor
  · intro hlength
    have hnodup := nodup_unique values
    match hunique : unique values with
    | [] => simp [hunique] at hlength
    | [_] => simp [hunique] at hlength
    | first :: second :: rest =>
        rw [hunique] at hnodup
        have hfirst : first ∈ values := mem_unique.mp (by simp [hunique])
        have hsecond : second ∈ values := mem_unique.mp (by simp [hunique])
        refine ⟨first, hfirst, second, hsecond, ?_⟩
        rintro rfl
        exact (List.nodup_cons.mp hnodup).1 List.mem_cons_self
  · rintro ⟨first, hfirst, second, hsecond, hne⟩
    have hpair : [first, second].Subperm (unique values) :=
      List.subperm_of_subset (by simpa using hne) (by
        intro value hvalue
        rcases List.mem_pair.mp hvalue with rfl | rfl
        · exact mem_unique.mpr hfirst
        · exact mem_unique.mpr hsecond)
    exact hpair.length_le

theorem isConflict_iff : isConflict platform ⟨key, representatives platform group⟩ = true ↔
    ∃ first ∈ representatives platform group, ∃ second ∈ representatives platform group,
      excerptOf platform first ≠ excerptOf platform second := by
  have htexts : 2 ≤ (unique ((representatives platform group).map fun candidate =>
      normalized platform candidate.excerpt)).length ↔
        ∃ first ∈ representatives platform group, ∃ second ∈ representatives platform group,
          excerptOf platform first ≠ excerptOf platform second := by
    rw [two_le_unique]
    simp only [List.mem_map]
    constructor
    · rintro ⟨_, ⟨first, hfirst, rfl⟩, _, ⟨second, hsecond, rfl⟩, hne⟩
      exact ⟨first, hfirst, second, hsecond, hne⟩
    · rintro ⟨first, hfirst, second, hsecond, hne⟩
      exact ⟨_, ⟨first, hfirst, rfl⟩, _, ⟨second, hsecond, rfl⟩, hne⟩
  rw [isConflict, Bool.and_eq_true, decide_eq_true_iff, decide_eq_true_iff, htexts]
  refine ⟨And.right, fun h => ⟨?_, h⟩⟩
  -- Two different texts belong to two representatives.
  obtain ⟨first, hfirst, second, hsecond, hne⟩ := h
  match hreps : representatives platform group with
  | [] => simp [hreps] at hfirst
  | [only] =>
      rw [hreps, List.mem_singleton] at hfirst hsecond
      exact absurd (congrArg (excerptOf platform) (hfirst.trans hsecond.symm)) hne
  | _ :: _ :: _ => simp

/-- **Conflicts.**  The conflicts are the slots of which two representatives have different
excerpts, with all of their representatives. -/
theorem mem_versionConflicts {conflict : VersionConflict σ} :
    conflict ∈ versionConflicts platform candidates ↔
      conflict = ⟨conflict.key,
        representatives platform (slotGroup platform candidates conflict.key)⟩ ∧
      ∃ first ∈ conflict.candidates, ∃ second ∈ conflict.candidates,
        excerptOf platform first ≠ excerptOf platform second := by
  rw [versionConflicts, List.mem_filter, List.mem_map]
  constructor
  · rintro ⟨⟨⟨key, group⟩, hentry, rfl⟩, hconflict⟩
    obtain ⟨rfl, -⟩ := mem_groupBySlot.mp hentry
    exact ⟨rfl, isConflict_iff.mp hconflict⟩
  · rintro ⟨heq, first, hfirst, hrest⟩
    rw [heq] at hfirst hrest
    have hmem : first ∈ slotGroup platform candidates conflict.key := mem_of_representative hfirst
    refine ⟨⟨(conflict.key, slotGroup platform candidates conflict.key),
      mem_groupBySlot.mpr ⟨rfl, List.ne_nil_of_mem hmem⟩, heq.symm⟩, ?_⟩
    rw [heq]
    exact isConflict_iff.mpr ⟨first, hfirst, hrest⟩

/-- A conflict has the slot of its candidates. -/
theorem slot_of_conflict {conflict : VersionConflict σ}
    (h : conflict ∈ versionConflicts platform candidates) (hmem : candidate ∈ conflict.candidates) :
    candidate ∈ candidates ∧ conflictSlot platform candidate = conflict.key := by
  rw [(mem_versionConflicts.mp h).1] at hmem
  exact mem_slotGroup.mp (mem_of_representative hmem)

theorem nodup_conflictKeys (candidates : List (ClassifiedSearchCandidate σ)) :
    ((versionConflicts platform candidates).map VersionConflict.key).Nodup := by
  have hkeys : ((groupBySlot platform candidates).map fun entry =>
      VersionConflict.mk entry.1 (representatives platform entry.2)).map VersionConflict.key =
        (groupBySlot platform candidates).map Prod.fst := by
    rw [List.map_map]
    rfl
  refine List.Nodup.sublist (List.filter_sublist.map _) ?_
  rw [hkeys]
  exact nodup_slots candidates

end Conflicts

end SearchEvidence
