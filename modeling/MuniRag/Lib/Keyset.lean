import Mathlib.Data.List.Pairwise
import Mathlib.Data.List.Sort

/-!
# Keyset pagination

A list of rows is read in pages, in descending order of a key.  A page ends with a
cursor made from its last row, and the next page begins with the rows that lie after
that cursor.  A cursor may say less than the key it was made from: the rows after it
are older than its row (`key_lt_of_after`), but an older row need not lie after it.

A walk never lists a row twice and always ends.  It lists every row, whatever the size
of its pages, exactly when each older row lies after the cursor of each newer one
(`walk_complete_iff`); rows inserted along the way then hide no row that was there
before (`walk_keeps`).
-/

namespace Keyset

/-- Keys of rows, and cursors that mark a place among them. -/
structure Keys (α K κ : Type) [LinearOrder K] where
  key : α → K
  cursor : α → κ
  after : κ → α → Bool
  key_lt_of_after : ∀ {row other}, after (cursor row) other = true → key other < key row
  after_of_le : ∀ {c row other}, after c row = true → key other ≤ key row → after c other = true

/-- A walk along the pages: what it has listed, and the cursor of the next request, if
there is one. -/
structure Progress (α κ : Type) where
  listed : List α
  next : Option (Option κ)

section Walk

variable {α K κ : Type} [LinearOrder K] (keys : Keys α K κ)

/-- The newest row first. -/
def ordered (rows : List α) : List α :=
  rows.insertionSort fun row other => keys.key other ≤ keys.key row

def allowed (cursor : Option κ) (row : α) : Bool := cursor.all (keys.after · row)

/-- The rows of one page, and the cursor of the next one. -/
def page (rows : List α) (limit : Nat) (cursor : Option κ) : List α × Option κ :=
  let found := ordered keys (rows.filter (allowed keys cursor))
  (found.take limit,
    if limit < found.length then (found.take limit).getLast?.map keys.cursor else none)

def advance (rows : List α) (limit : Nat) (progress : Progress α κ) : Progress α κ :=
  match progress.next with
  | none => progress
  | some cursor =>
      { listed := progress.listed ++ (page keys rows limit cursor).1
        next := (page keys rows limit cursor).2.map some }

/-- The walk after a number of requests; `tables n` is what request `n` reads. -/
def walk (tables : Nat → List α) (limit : Nat) : Nat → Progress α κ
  | 0 => { listed := [], next := some none }
  | n + 1 => advance keys (tables n) limit (walk tables limit n)

/-- Older rows lie after the cursors of newer ones. -/
def Separated (rows : List α) : Prop :=
  ∀ row ∈ rows, ∀ other ∈ rows, keys.key other < keys.key row →
    keys.after (keys.cursor row) other = true

end Walk

/-! ## One page -/

section Page

variable {α K κ : Type} [LinearOrder K] {keys : Keys α K κ} {rows : List α} {limit : Nat}
  {cursor : Option κ}

theorem mem_ordered {row : α} : row ∈ ordered keys rows ↔ row ∈ rows :=
  List.mem_insertionSort _

theorem ordered_descending (h : (rows.map keys.key).Nodup) :
    (ordered keys rows).Pairwise fun row other => keys.key other < keys.key row := by
  have htotal : Std.Total fun row other : α => keys.key other ≤ keys.key row :=
    ⟨fun a b => le_total (keys.key b) (keys.key a)⟩
  have htrans : IsTrans α fun row other => keys.key other ≤ keys.key row :=
    ⟨fun a b c hab hbc => hbc.trans hab⟩
  have hsorted : (ordered keys rows).Pairwise fun row other => keys.key other ≤ keys.key row :=
    List.pairwise_insertionSort _ rows
  have hnodup : ((ordered keys rows).map keys.key).Nodup :=
    ((List.perm_insertionSort _ rows).map keys.key).nodup_iff.mpr h
  have hne : (ordered keys rows).Pairwise fun row other => keys.key row ≠ keys.key other :=
    List.pairwise_map.mp hnodup
  exact hsorted.imp₂ (fun row other hle hne => lt_of_le_of_ne hle (Ne.symm hne)) hne

theorem mem_page {row : α} (h : row ∈ (page keys rows limit cursor).1) :
    row ∈ rows ∧ allowed keys cursor row = true := by
  have hfound := mem_ordered.mp (List.mem_of_mem_take h)
  exact List.mem_filter.mp hfound

theorem page_nil : page keys [] limit cursor = ([], none) := by
  simp [page, ordered]

theorem found_descending (h : (rows.map keys.key).Nodup) :
    (ordered keys (rows.filter (allowed keys cursor))).Pairwise
      fun row other => keys.key other < keys.key row :=
  ordered_descending (h.sublist (List.filter_sublist.map keys.key))

theorem page_descending (h : (rows.map keys.key).Nodup) :
    (page keys rows limit cursor).1.Pairwise fun row other => keys.key other < keys.key row :=
  (found_descending h).sublist (List.take_sublist _ _)

/-- The last page holds all that is left. -/
theorem page_last (hlimit : 1 ≤ limit) (hnone : (page keys rows limit cursor).2 = none) {row : α}
    (hrow : row ∈ rows) (hallowed : allowed keys cursor row = true) :
    row ∈ (page keys rows limit cursor).1 := by
  have hfound : row ∈ ordered keys (rows.filter (allowed keys cursor)) :=
    mem_ordered.mpr (List.mem_filter.mpr ⟨hrow, hallowed⟩)
  simp only [page] at hnone ⊢
  split_ifs at hnone with hmore
  · rw [Option.map_eq_none_iff, List.getLast?_eq_none_iff, List.take_eq_nil_iff] at hnone
    rcases hnone with hzero | hempty
    · omega
    · rw [hempty] at hfound
      cases hfound
  · rw [List.take_of_length_le (by omega)]
    exact hfound

/-- A page that is not the last is full, and its cursor is that of its oldest row: the
page holds all rows down to that one. -/
theorem page_more {c : κ} (h : (rows.map keys.key).Nodup)
    (hmore : (page keys rows limit cursor).2 = some c) :
    (page keys rows limit cursor).1.length = limit ∧
      ∃ last ∈ (page keys rows limit cursor).1, c = keys.cursor last ∧
        (∀ row ∈ (page keys rows limit cursor).1, keys.key last ≤ keys.key row) ∧
        ∀ row ∈ rows, allowed keys cursor row = true → keys.key last ≤ keys.key row →
          row ∈ (page keys rows limit cursor).1 := by
  have hsorted : (ordered keys (rows.filter (allowed keys cursor))).Pairwise
      fun row other => keys.key other < keys.key row := found_descending h
  simp only [page] at hmore ⊢
  generalize hfound : ordered keys (rows.filter (allowed keys cursor)) = found at hmore hsorted ⊢
  split_ifs at hmore with hlength
  obtain ⟨last, hlast, rfl⟩ := Option.map_eq_some_iff.mp hmore
  obtain ⟨before, hbefore⟩ := List.getLast?_eq_some_iff.mp hlast
  refine ⟨List.length_take_of_le hlength.le, last, List.mem_of_getLast? hlast, rfl, ?_, ?_⟩
  · intro row hrow
    have htake := hsorted.sublist (List.take_sublist limit found)
    rw [hbefore] at htake hrow
    rcases List.mem_append.mp hrow with hrow | hrow
    · exact (List.pairwise_append.mp htake).2.2 row hrow last List.mem_cons_self |>.le
    · rw [List.mem_singleton.mp hrow]
  · intro row hrow hallowed hkey
    have hmem : row ∈ found := by
      rw [← hfound]
      exact mem_ordered.mpr (List.mem_filter.mpr ⟨hrow, hallowed⟩)
    rw [← List.take_append_drop limit found] at hmem hsorted
    rcases List.mem_append.mp hmem with hmem | hmem
    · exact hmem
    · have holder := (List.pairwise_append.mp hsorted).2.2 last (List.mem_of_getLast? hlast) row hmem
      exact absurd holder (not_lt.mpr hkey)

end Page

/-! ## Walks -/

section Progress

variable {α K κ : Type} [LinearOrder K] {keys : Keys α K κ} {rows : List α} {limit : Nat}

theorem advance_none {progress : Progress α κ} (h : progress.next = none) :
    advance keys rows limit progress = progress := by
  rw [advance, h]

theorem advance_some {progress : Progress α κ} {cursor : Option κ}
    (h : progress.next = some cursor) :
    advance keys rows limit progress =
      { listed := progress.listed ++ (page keys rows limit cursor).1
        next := (page keys rows limit cursor).2.map some } := by
  rw [advance, h]

/-- What every walk keeps: the rows listed are in order, and the cursor is that of the
oldest of them. -/
structure Marked (keys : Keys α K κ) (rows : List α) (progress : Progress α κ) : Prop where
  known : ∀ row ∈ progress.listed, row ∈ rows
  descending : progress.listed.Pairwise fun row other => keys.key other < keys.key row
  fresh : progress.next = some none → progress.listed = []
  marked : ∀ c, progress.next = some (some c) → ∃ last ∈ progress.listed,
    c = keys.cursor last ∧ ∀ row ∈ progress.listed, keys.key last ≤ keys.key row

theorem Marked.start : Marked keys rows { listed := [], next := some none } where
  known := fun _ hrow => nomatch hrow
  descending := .nil
  fresh := fun _ => rfl
  marked := fun _ hc => nomatch hc

/-- What the next page may list is older than what is listed. -/
theorem Marked.older {progress : Progress α κ} (h : Marked keys rows progress)
    {cursor : Option κ} (hnext : progress.next = some cursor) {row other : α}
    (hrow : row ∈ progress.listed) (hother : allowed keys cursor other = true) :
    keys.key other < keys.key row := by
  cases cursor with
  | none =>
      rw [h.fresh hnext] at hrow
      cases hrow
  | some c =>
      obtain ⟨last, _, rfl, hlast⟩ := h.marked c hnext
      exact (keys.key_lt_of_after hother).trans_le (hlast row hrow)

theorem Marked.advance {rows' : List α} {progress : Progress α κ} (h : Marked keys rows progress)
    (hgrow : ∀ row ∈ rows, row ∈ rows') (hkeys : (rows'.map keys.key).Nodup) :
    Marked keys rows' (advance keys rows' limit progress) := by
  cases hnext : progress.next with
  | none =>
      rw [advance_none hnext]
      exact ⟨fun row hrow => hgrow row (h.known row hrow), h.descending, h.fresh, h.marked⟩
  | some cursor =>
      rw [advance_some hnext]
      have holder : ∀ row ∈ progress.listed, ∀ other ∈ (page keys rows' limit cursor).1,
          keys.key other < keys.key row := by
        intro row hrow other hother
        exact h.older hnext hrow (mem_page hother).2
      refine ⟨?_, ?_, ?_, ?_⟩
      · intro row hrow
        rcases List.mem_append.mp hrow with hrow | hrow
        · exact hgrow row (h.known row hrow)
        · exact (mem_page hrow).1
      · exact List.pairwise_append.mpr ⟨h.descending, page_descending hkeys, holder⟩
      · intro hfresh
        obtain ⟨c, _, hc⟩ := Option.map_eq_some_iff.mp hfresh
        cases hc
      · intro c hc
        obtain ⟨c', hmore, hsome⟩ := Option.map_eq_some_iff.mp hc
        obtain rfl := Option.some.inj hsome
        obtain ⟨_, last, hlast, hcursor, hmin, _⟩ := page_more hkeys hmore
        refine ⟨last, List.mem_append_right _ hlast, hcursor, ?_⟩
        intro row hrow
        rcases List.mem_append.mp hrow with hrow | hrow
        · exact (holder row hrow last hlast).le
        · exact hmin row hrow

/-- What a walk keeps where cursors separate: it has passed no row by. -/
structure Covers (keys : Keys α K κ) (old : List α) (progress : Progress α κ) : Prop where
  done : progress.next = none → ∀ row ∈ old, row ∈ progress.listed
  passed : ∀ c, progress.next = some (some c) → ∃ last ∈ progress.listed, c = keys.cursor last ∧
    ∀ row ∈ old, keys.key last ≤ keys.key row → row ∈ progress.listed

theorem Covers.start {old : List α} : Covers keys old { listed := [], next := some none } where
  done := fun hnone => nomatch hnone
  passed := fun _ hc => nomatch hc

/-- An old row is listed, or the next page may list it. -/
theorem Covers.listed_or_allowed {old : List α} {progress : Progress α κ}
    (h : Covers keys old progress) (hmarked : Marked keys rows progress)
    (hold : ∀ row ∈ old, row ∈ rows) (hseparated : Separated keys rows) {cursor : Option κ}
    (hnext : progress.next = some cursor) {row : α} (hrow : row ∈ old) :
    row ∈ progress.listed ∨ allowed keys cursor row = true := by
  cases cursor with
  | none => exact .inr rfl
  | some c =>
      obtain ⟨last, hlast, rfl, hpassed⟩ := h.passed c hnext
      by_cases hkey : keys.key last ≤ keys.key row
      · exact .inl (hpassed row hrow hkey)
      · exact .inr (hseparated last (hmarked.known last hlast) row (hold row hrow) (not_le.mp hkey))

theorem Covers.advance {old rows' : List α} {progress : Progress α κ}
    (h : Covers keys old progress) (hmarked : Marked keys rows progress)
    (hgrow : ∀ row ∈ rows, row ∈ rows') (hold : ∀ row ∈ old, row ∈ rows')
    (hseparated : Separated keys rows') (hkeys : (rows'.map keys.key).Nodup)
    (hlimit : 1 ≤ limit) : Covers keys old (advance keys rows' limit progress) := by
  have hmarked' : Marked keys rows' progress :=
    ⟨fun row hrow => hgrow row (hmarked.known row hrow), hmarked.descending, hmarked.fresh,
      hmarked.marked⟩
  cases hnext : progress.next with
  | none =>
      rw [advance_none hnext]
      exact h
  | some cursor =>
      rw [advance_some hnext]
      have hcase : ∀ row ∈ old, row ∈ progress.listed ∨ allowed keys cursor row = true := by
        intro row hrow
        exact h.listed_or_allowed hmarked' hold hseparated hnext hrow
      constructor
      · intro hnone row hrow
        rcases hcase row hrow with hlisted | hallowed
        · exact List.mem_append_left _ hlisted
        · have hlast := Option.map_eq_none_iff.mp hnone
          exact List.mem_append_right _ (page_last hlimit hlast (hold row hrow) hallowed)
      · intro c hc
        obtain ⟨c', hmore, hsome⟩ := Option.map_eq_some_iff.mp hc
        obtain rfl := Option.some.inj hsome
        obtain ⟨_, last, hlast, hcursor, _, hall⟩ := page_more hkeys hmore
        refine ⟨last, List.mem_append_right _ hlast, hcursor, ?_⟩
        intro row hrow hkey
        rcases hcase row hrow with hlisted | hallowed
        · exact List.mem_append_left _ hlisted
        · exact List.mem_append_right _ (hall row (hold row hrow) hallowed hkey)

/-- Pages of one row: each row listed lies after the cursors of those before it. -/
structure Stepped (keys : Keys α K κ) (progress : Progress α κ) : Prop where
  chain : progress.listed.Pairwise fun row other => keys.after (keys.cursor row) other = true
  head : ∀ c, progress.next = some (some c) → ∃ last ∈ progress.listed, c = keys.cursor last ∧
    ∀ row ∈ progress.listed, row = last ∨ keys.after (keys.cursor row) last = true

theorem Stepped.advance {progress : Progress α κ} (h : Stepped keys progress)
    (hmarked : Marked keys rows progress) (hkeys : (rows.map keys.key).Nodup) :
    Stepped keys (advance keys rows 1 progress) := by
  cases hnext : progress.next with
  | none =>
      rw [advance_none hnext]
      exact h
  | some cursor =>
      rw [advance_some hnext]
      have hafter : ∀ row ∈ progress.listed, ∀ other ∈ (page keys rows 1 cursor).1,
          keys.after (keys.cursor row) other = true := by
        intro row hrow other hother
        have hallowed := (mem_page hother).2
        cases cursor with
        | none =>
            rw [hmarked.fresh hnext] at hrow
            cases hrow
        | some c =>
            obtain ⟨last, _, rfl, hhead⟩ := h.head c hnext
            rcases hhead row hrow with rfl | hbefore
            · exact hallowed
            · exact keys.after_of_le hbefore (keys.key_lt_of_after hallowed).le
      have hone : (page keys rows 1 cursor).1.length ≤ 1 := List.length_take_le _ _
      have hsingle : ∀ row ∈ (page keys rows 1 cursor).1, ∀ other ∈ (page keys rows 1 cursor).1,
          row = other := by
        intro row hrow other hother
        obtain ⟨single, hpage⟩ := List.length_eq_one_iff.mp
          (Nat.le_antisymm hone (List.length_pos_of_mem hrow))
        rw [hpage] at hrow hother
        rw [List.mem_singleton.mp hrow, List.mem_singleton.mp hother]
      constructor
      · refine List.pairwise_append.mpr ⟨h.chain, ?_, hafter⟩
        match hpage : (page keys rows 1 cursor).1, hone with
        | [], _ => exact .nil
        | [row], _ => exact List.pairwise_singleton _ row
      · intro c hc
        obtain ⟨c', hmore, hsome⟩ := Option.map_eq_some_iff.mp hc
        obtain rfl := Option.some.inj hsome
        obtain ⟨_, last, hlast, hcursor, _, _⟩ := page_more hkeys hmore
        refine ⟨last, List.mem_append_right _ hlast, hcursor, ?_⟩
        intro row hrow
        rcases List.mem_append.mp hrow with hrow | hrow
        · exact .inr (hafter row hrow last hlast)
        · exact .inl (hsingle row hrow last hlast)

end Progress

section Runs

variable {α K κ : Type} [LinearOrder K] {keys : Keys α K κ} (tables : Nat → List α)

theorem grown {tables : Nat → List α} (hgrow : ∀ n, ∀ row ∈ tables n, row ∈ tables (n + 1)) (n : Nat) :
    ∀ row ∈ tables 0, row ∈ tables n := by
  induction n with
  | zero => exact fun row hrow => hrow
  | succ n ih => exact fun row hrow => hgrow n row (ih row hrow)

/-- What the walk has listed after `n` requests was in the table that request `n` reads. -/
theorem walk_marked (hgrow : ∀ n, ∀ row ∈ tables n, row ∈ tables (n + 1))
    (hkeys : ∀ n, ((tables n).map keys.key).Nodup) (limit n : Nat) :
    Marked keys (tables n) (walk keys tables limit n) := by
  induction n with
  | zero => exact .start
  | succ n ih =>
      have hstep : Marked keys (tables n) (walk keys tables limit (n + 1)) :=
        ih.advance (fun row hrow => hrow) (hkeys n)
      exact ⟨fun row hrow => hgrow n row (hstep.known row hrow), hstep.descending, hstep.fresh,
        hstep.marked⟩

/-- **Inserted rows hide nothing**: a walk that has ended has listed every row that was
there when it began. -/
theorem walk_keeps (hgrow : ∀ n, ∀ row ∈ tables n, row ∈ tables (n + 1))
    (hkeys : ∀ n, ((tables n).map keys.key).Nodup) (hseparated : ∀ n, Separated keys (tables n))
    {limit : Nat} (hlimit : 1 ≤ limit) (n : Nat) :
    Covers keys (tables 0) (walk keys tables limit n) := by
  induction n with
  | zero => exact .start
  | succ n ih =>
      exact ih.advance (walk_marked tables hgrow hkeys limit n) (fun row hrow => hrow)
        (grown hgrow n) (hseparated n) (hkeys n) hlimit

/-- A walk that goes on has listed full pages. -/
theorem walk_length {tables : Nat → List α} (hkeys : ∀ n, ((tables n).map keys.key).Nodup) {limit n : Nat}
    {cursor : Option κ} (hnext : (walk keys tables limit n).next = some cursor) :
    (walk keys tables limit n).listed.length = n * limit := by
  induction n generalizing cursor with
  | zero => rw [walk, List.length_nil, Nat.zero_mul]
  | succ n ih =>
      rw [walk] at hnext ⊢
      cases hbefore : (walk keys tables limit n).next with
      | none =>
          rw [advance_none hbefore, hbefore] at hnext
          cases hnext
      | some cursor' =>
          rw [advance_some hbefore] at hnext ⊢
          obtain ⟨c, hmore, _⟩ := Option.map_eq_some_iff.mp hnext
          rw [List.length_append, ih hbefore, (page_more (hkeys n) hmore).1, Nat.succ_mul]

variable {rows : List α}

/-- **Walks end.** -/
theorem walk_ends (hkeys : (rows.map keys.key).Nodup) {limit : Nat} (hlimit : 1 ≤ limit) :
    ∃ n, (walk keys (fun _ => rows) limit n).next = none := by
  refine ⟨rows.length + 1, ?_⟩
  have hmarked := walk_marked (fun _ => rows) (fun _ _ h => h) (fun _ => hkeys) limit
    (rows.length + 1)
  by_contra hnext
  obtain ⟨cursor, hnext⟩ := Option.ne_none_iff_exists'.mp hnext
  have hlength := walk_length (fun _ => hkeys) hnext
  have hnodup : (walk keys (fun _ => rows) limit (rows.length + 1)).listed.Nodup :=
    hmarked.descending.imp fun hlt heq => absurd (congrArg keys.key heq) hlt.ne'
  have hle := (List.subperm_of_subset hnodup hmarked.known).length_le
  rw [hlength] at hle
  have hmul : rows.length + 1 ≤ (rows.length + 1) * limit := Nat.le_mul_of_pos_right _ hlimit
  omega

/-- What has been listed when a walk is complete: every row once, the newest first. -/
def Lists (keys : Keys α K κ) (rows listed : List α) : Prop :=
  listed.Perm rows ∧ listed.Pairwise fun row other => keys.key other < keys.key row

theorem walk_lists (hkeys : (rows.map keys.key).Nodup) (hseparated : Separated keys rows)
    {limit n : Nat} (hlimit : 1 ≤ limit)
    (hdone : (walk keys (fun _ => rows) limit n).next = none) :
    Lists keys rows (walk keys (fun _ => rows) limit n).listed := by
  have hmarked := walk_marked (fun _ => rows) (fun _ _ h => h) (fun _ => hkeys) limit n
  have hcovers := walk_keeps (fun _ => rows) (fun _ _ h => h) (fun _ => hkeys)
    (fun _ => hseparated) hlimit n
  have hnodup : (walk keys (fun _ => rows) limit n).listed.Nodup :=
    hmarked.descending.imp fun hlt heq => absurd (congrArg keys.key heq) hlt.ne'
  refine ⟨(List.perm_ext_iff_of_nodup hnodup hkeys.of_map).mpr fun row => ?_, hmarked.descending⟩
  exact ⟨hmarked.known row, hcovers.done hdone row⟩

theorem walk_stepped (hkeys : (rows.map keys.key).Nodup) (n : Nat) :
    Stepped keys (walk keys (fun _ => rows) 1 n) := by
  induction n with
  | zero => exact ⟨.nil, fun _ hc => nomatch hc⟩
  | succ n ih =>
      exact ih.advance (walk_marked (fun _ => rows) (fun _ _ h => h) (fun _ => hkeys) 1 n)
        hkeys

/-- **Walks of every page size are complete exactly when the cursors separate the rows.** -/
theorem walk_complete_iff (hkeys : (rows.map keys.key).Nodup) :
    (∀ limit, 1 ≤ limit → ∃ n, (walk keys (fun _ => rows) limit n).next = none ∧
      Lists keys rows (walk keys (fun _ => rows) limit n).listed) ↔ Separated keys rows := by
  constructor
  · intro hcomplete row hrow other hother hkey
    obtain ⟨n, _, hperm, _⟩ := hcomplete 1 le_rfl
    have hchain := (walk_stepped hkeys n).chain
    have hboth : ∀ row ∈ (walk keys (fun _ => rows) 1 n).listed,
        ∀ other ∈ (walk keys (fun _ => rows) 1 n).listed, row ≠ other →
          keys.after (keys.cursor row) other = true ∨ keys.after (keys.cursor other) row = true := by
      have hsymm : Std.Symm fun row other => keys.after (keys.cursor row) other = true ∨
          keys.after (keys.cursor other) row = true := ⟨fun _ _ h => h.symm⟩
      intro row hrow other hother hne
      have hchain' : (walk keys (fun _ => rows) 1 n).listed.Pairwise fun row other =>
          keys.after (keys.cursor row) other = true ∨ keys.after (keys.cursor other) row = true :=
        hchain.imp fun h => .inl h
      exact hchain'.forall hrow hother hne
    have hne : row ≠ other := fun heq => absurd (congrArg keys.key heq) hkey.ne'
    rcases hboth row (hperm.mem_iff.mpr hrow) other (hperm.mem_iff.mpr hother) hne with h | h
    · exact h
    · exact absurd (keys.key_lt_of_after h) (not_lt.mpr hkey.le)
  · intro hseparated limit hlimit
    obtain ⟨n, hdone⟩ := walk_ends hkeys hlimit
    exact ⟨n, hdone, walk_lists hkeys hseparated hlimit hdone⟩

end Runs

/-! ## Rows and their images -/

section Images

variable {α β K K' κ : Type} [LinearOrder K] [LinearOrder K'] {keys : Keys α K κ}
  {keys' : Keys β K' κ} {f : α → β}

/-- On the rows of a table, the images lie in the same order and their cursors agree. -/
structure Agree (keys : Keys α K κ) (keys' : Keys β K' κ) (f : α → β) (rows : List α) :
    Prop where
  key : ∀ row ∈ rows, ∀ other ∈ rows,
    keys'.key (f other) ≤ keys'.key (f row) ↔ keys.key other ≤ keys.key row
  cursor : ∀ row, keys'.cursor (f row) = keys.cursor row
  after : ∀ row ∈ rows, ∀ other ∈ rows,
    keys'.after (keys.cursor row) (f other) = keys.after (keys.cursor row) other

theorem page_map {rows : List α} (h : Agree keys keys' f rows) {cursor : Option κ}
    (hcursor : ∀ c, cursor = some c → ∃ row ∈ rows, c = keys.cursor row) (limit : Nat) :
    page keys' (rows.map f) limit cursor =
      ((page keys rows limit cursor).1.map f, (page keys rows limit cursor).2) := by
  have hallowed : ∀ other ∈ rows, allowed keys' cursor (f other) = allowed keys cursor other := by
    intro other hother
    cases cursor with
    | none => rfl
    | some c =>
        obtain ⟨row, hrow, rfl⟩ := hcursor c rfl
        exact h.after row hrow other hother
  have hfilter : (rows.map f).filter (allowed keys' cursor) =
      (rows.filter (allowed keys cursor)).map f := by
    rw [List.filter_map]
    congr 1
    exact List.filter_congr hallowed
  have hordered : ordered keys' ((rows.filter (allowed keys cursor)).map f) =
      (ordered keys (rows.filter (allowed keys cursor))).map f := by
    refine (List.map_insertionSort _ _ f _ fun row hrow other hother => ?_).symm
    exact (h.key row (List.mem_of_mem_filter hrow) other (List.mem_of_mem_filter hother)).symm
  have hlast : ∀ rows : List α, (rows.map f).getLast?.map keys'.cursor =
      rows.getLast?.map keys.cursor := by
    intro rows
    rw [List.getLast?_map, Option.map_map]
    congr 1
    exact funext h.cursor
  simp only [page, hfilter, hordered, List.length_map, ← List.map_take, hlast]

end Images

end Keyset
