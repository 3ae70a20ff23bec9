import MuniRag.Documents.Lines
import MuniRag.Embeddings.Indexer
import MuniRag.Lib.Spans
import MuniRag.Lib.Utf16

/-!
# The slices of a paragraph that is too long

`splitLongText` cuts such a paragraph at multiples of the stride and trims each window.
A cut does not look at what it separates, and the last window can end where the one before
it ended.  **The slices are well formed and each brings something new exactly when no cut
separates a surrogate pair and no window adds only white space** (`slicesKeep_iff`).
-/

namespace Embeddings

open Documents Utf16

/-! ## Where the slices lie -/

/-- The trimmed window of a paragraph from a start on, with the positions it has there. -/
structure PlacedSlice where
  text : JsString
  span : Span

/-- The text of one turn of the loop over the start positions, unless it is blank. -/
def sliceAt (maxChars : Nat) (paragraph : JsString) (start : Nat) : Option PlacedSlice :=
  let window := (paragraph.drop start).take maxChars
  let leading := (window.takeWhile isWhitespace).length
  if h : trim window = [] then none
  else some
    { text := trim window
      span :=
        { start := start + leading
          stop := start + leading + (trim window).length
          nonempty := Nat.lt_add_of_pos_right (List.length_pos_of_ne_nil h) } }

/-- The loop over the start positions. -/
def placedSlices (maxChars step : Nat) (paragraph : JsString) : Nat → Nat → List PlacedSlice
  | 0, _ => []
  | fuel + 1, start =>
      if start < paragraph.length then
        (sliceAt maxChars paragraph start).toList ++
          placedSlices maxChars step paragraph fuel (start + step)
      else []

variable {maxChars step : Nat} {paragraph : JsString} {start fuel i : Nat} {slice : PlacedSlice}

/-- They are the slices of the planner. -/
theorem map_text_placedSlices (maxChars step : Nat) (paragraph : JsString) (fuel start : Nat) :
    (placedSlices maxChars step paragraph fuel start).map PlacedSlice.text =
      slices maxChars step fuel (paragraph.drop start) := by
  induction fuel generalizing start with
  | zero => rfl
  | succ fuel ih =>
      rw [placedSlices]
      by_cases hstart : start < paragraph.length
      · obtain ⟨u, rest, hrest⟩ : ∃ u rest, paragraph.drop start = u :: rest :=
          List.exists_cons_of_ne_nil fun hnil => by
            have hle := List.drop_eq_nil_iff.mp hnil
            omega
        rw [if_pos hstart, List.map_append, ih, ← List.drop_drop, hrest, slices_cons, ← hrest]
        by_cases hblank : trim ((paragraph.drop start).take maxChars) = []
        · simp [sliceAt, hblank]
        · simp [sliceAt, hblank]
      · rw [if_neg hstart, List.drop_eq_nil_of_le (by omega)]
        rfl

/-! ## The units of a slice -/

/-- The unit at a position is no white space. -/
def SolidAt (paragraph : JsString) (i : Nat) : Prop :=
  ∃ u, paragraph[i]? = some u ∧ isWhitespace u = false

/-- What is known of the positions of a slice. -/
structure Framed (maxChars : Nat) (paragraph : JsString) (start : Nat) (span : Span) : Prop where
  low : start ≤ span.start
  high : span.stop ≤ start + maxChars
  holds : ∀ i, start ≤ i → i < start + maxChars → SolidAt paragraph i → span.Holds i
  first : SolidAt paragraph span.start
  last : SolidAt paragraph (span.stop - 1)

/-- A text that is not blank begins, behind its leading white space, with a solid unit and
ends with one before its trailing white space. -/
theorem trim_parts {text : JsString} (h : trim text ≠ []) : ∃ after,
    text = text.takeWhile isWhitespace ++ trim text ++ after ∧
      (∀ u ∈ after, isWhitespace u = true) ∧
      isWhitespace ((trim text).head h) = false ∧ isWhitespace ((trim text).getLast h) = false := by
  have hrdrop : (text.dropWhile isWhitespace).rdropWhile isWhitespace = trim text := rfl
  have hsplit : text.dropWhile isWhitespace = trim text ++
      (text.dropWhile isWhitespace).rtakeWhile isWhitespace := by
    rw [← hrdrop, List.rdropWhile, List.rtakeWhile, ← List.reverse_append,
      List.takeWhile_append_dropWhile, List.reverse_reverse]
  refine ⟨(text.dropWhile isWhitespace).rtakeWhile isWhitespace, ?_, ?_, ?_, ?_⟩
  · rw [List.append_assoc, ← hsplit, List.takeWhile_append_dropWhile]
  · exact fun u hu => List.mem_rtakeWhile_imp hu
  · have hne : text.dropWhile isWhitespace ≠ [] := by
      rw [hsplit]
      exact List.append_ne_nil_of_left_ne_nil h _
    have hhead := List.head_dropWhile_not isWhitespace hne
    have hsame : (text.dropWhile isWhitespace).head hne = (trim text).head h := by
      rw [List.head_eq_iff_head?_eq_some, hsplit, List.head?_append, List.head?_eq_some_head h]
      rfl
    rwa [hsame] at hhead
  · have hlast := List.rdropWhile_last_not isWhitespace (text.dropWhile isWhitespace) h
    exact Bool.eq_false_iff.mpr hlast

/-- The solid units of a text lie in what trimming leaves, and its ends are solid. -/
theorem trim_frame {text : JsString} (h : trim text ≠ []) :
    let leading := (text.takeWhile isWhitespace).length
    leading + (trim text).length ≤ text.length ∧
      (∀ i, SolidAt text i → leading ≤ i ∧ i < leading + (trim text).length) ∧
      SolidAt text leading ∧ SolidAt text (leading + (trim text).length - 1) := by
  intro leading
  obtain ⟨after, hparts, hafter, hfirst, hlast⟩ := trim_parts h
  have hpos := List.length_pos_of_ne_nil h
  have hlength : text.length = leading + (trim text).length + after.length := by
    conv_lhs => rw [hparts]
    rw [List.length_append, List.length_append]
  have hinner : ∀ i < (trim text).length, text[leading + i]? = (trim text)[i]? := by
    intro i hi
    conv_lhs => rw [hparts, List.append_assoc]
    rw [List.getElem?_append_right (Nat.le_add_right _ _), Nat.add_sub_cancel_left,
      List.getElem?_append_left hi]
  refine ⟨by omega, ?_, ?_, ?_⟩
  · rintro i ⟨u, hget, hsolid⟩
    rw [hparts, List.append_assoc] at hget
    constructor
    · by_contra hlow
      rw [List.getElem?_append_left (not_le.mp hlow)] at hget
      have hblank := List.mem_takeWhile_imp (List.mem_of_getElem? hget)
      rw [hblank] at hsolid
      cases hsolid
    · by_contra hhigh
      rw [List.getElem?_append_right (by omega), List.getElem?_append_right (by omega)] at hget
      have hblank := hafter u (List.mem_of_getElem? hget)
      rw [hblank] at hsolid
      cases hsolid
  · refine ⟨_, ?_, hfirst⟩
    rw [← Nat.add_zero leading, hinner 0 hpos, ← List.head?_eq_getElem?,
      List.head?_eq_some_head h]
  · refine ⟨_, ?_, hlast⟩
    rw [Nat.add_sub_assoc hpos, hinner _ (by omega), ← List.getLast?_eq_getElem?,
      List.getLast?_eq_some_getLast h]

theorem solidAt_window :
    SolidAt ((paragraph.drop start).take maxChars) i ↔ i < maxChars ∧ SolidAt paragraph (start + i) := by
  unfold SolidAt
  by_cases hi : i < maxChars
  · rw [List.getElem?_take, if_pos hi, List.getElem?_drop]
    exact ⟨fun h => ⟨hi, h⟩, fun h => h.2⟩
  · rw [List.getElem?_take, if_neg hi]
    exact ⟨fun ⟨u, hget, _⟩ => (nomatch hget), fun h => absurd h.1 hi⟩

/-- A window is not blank exactly when a position of it is solid. -/
theorem trim_window_ne_nil_iff :
    trim ((paragraph.drop start).take maxChars) ≠ [] ↔
      ∃ i, start ≤ i ∧ i < start + maxChars ∧ SolidAt paragraph i := by
  constructor
  · intro h
    obtain ⟨hi, hsolid⟩ := solidAt_window.mp (trim_frame h).2.2.1
    exact ⟨_, Nat.le_add_right _ _, Nat.add_lt_add_left hi _, hsolid⟩
  · rintro ⟨i, hlow, hhigh, u, hget, hsolid⟩ hblank
    have hall := solid_eq_nil_iff.mp (trim_eq_nil_iff.mp hblank)
    have hmem : u ∈ (paragraph.drop start).take maxChars := by
      refine List.mem_iff_getElem?.mpr ⟨i - start, ?_⟩
      rw [List.getElem?_take, if_pos (by omega), List.getElem?_drop, Nat.add_sub_cancel' hlow, hget]
    rw [hall u hmem] at hsolid
    cases hsolid

theorem sliceAt_eq_none_iff :
    sliceAt maxChars paragraph start = none ↔ trim ((paragraph.drop start).take maxChars) = [] := by
  unfold sliceAt
  by_cases hblank : trim ((paragraph.drop start).take maxChars) = []
  · simp [hblank]
  · simp [hblank]

theorem text_sliceAt (h : sliceAt maxChars paragraph start = some slice) :
    slice.text = trim ((paragraph.drop start).take maxChars) := by
  unfold sliceAt at h
  dsimp only at h
  split_ifs at h
  rw [← Option.some.inj h]

theorem sliceAt_framed (h : sliceAt maxChars paragraph start = some slice) :
    Framed maxChars paragraph start slice.span := by
  have hsaid : trim ((paragraph.drop start).take maxChars) ≠ [] := fun hblank => by
    rw [sliceAt_eq_none_iff.mpr hblank] at h
    cases h
  unfold sliceAt at h
  rw [dif_neg hsaid] at h
  obtain rfl := Option.some.inj h
  obtain ⟨hlength, hinside, hfirst, hlast⟩ := trim_frame hsaid
  have hpos := List.length_pos_of_ne_nil hsaid
  have hwindow : ((paragraph.drop start).take maxChars).length ≤ maxChars := List.length_take_le _ _
  constructor
  case low => exact Nat.le_add_right _ _
  case high =>
    dsimp only
    omega
  case holds =>
    intro i hlow hhigh hsolid
    have hhere : SolidAt ((paragraph.drop start).take maxChars) (i - start) :=
      solidAt_window.mpr ⟨by omega, by rwa [Nat.add_sub_cancel' hlow]⟩
    have hbounds := hinside _ hhere
    unfold Span.Holds
    dsimp only
    omega
  case first => exact (solidAt_window.mp hfirst).2
  case last =>
    have hend := (solidAt_window.mp hlast).2
    rwa [← Nat.add_sub_assoc (by omega), ← Nat.add_assoc] at hend

/-! ## The list of the slices -/

theorem mem_placedSlices (hstep : 1 ≤ step) (hfuel : paragraph.length ≤ start + fuel) :
    slice ∈ placedSlices maxChars step paragraph fuel start ↔
      ∃ k, start + k * step < paragraph.length ∧
        sliceAt maxChars paragraph (start + k * step) = some slice := by
  induction fuel generalizing start with
  | zero =>
      refine iff_of_false List.not_mem_nil ?_
      rintro ⟨k, hk, -⟩
      omega
  | succ fuel ih =>
      rw [placedSlices]
      by_cases hstart : start < paragraph.length
      · rw [if_pos hstart, List.mem_append, Option.mem_toList, ih (by omega)]
        constructor
        · rintro (hhere | ⟨k, hk, hlater⟩)
          · exact ⟨0, by omega, by simpa using hhere⟩
          · have hshift : start + step + k * step = start + (k + 1) * step := by ring
            exact ⟨k + 1, by rwa [← hshift], by rwa [← hshift]⟩
        · rintro ⟨_ | k, hk, hslice⟩
          · exact .inl (by simpa using hslice)
          · have hshift : start + step + k * step = start + (k + 1) * step := by ring
            exact .inr ⟨k, by rwa [hshift], by rwa [hshift]⟩
      · rw [if_neg hstart]
        refine iff_of_false List.not_mem_nil ?_
        rintro ⟨k, hk, -⟩
        omega

/-- Slices follow one another as their windows do. -/
theorem Framed.follows {earlier later : Span} {ahead : Nat}
    (hearlier : Framed maxChars paragraph start earlier)
    (hlater : Framed maxChars paragraph (start + ahead) later) : earlier.Follows later := by
  have hnonempty := earlier.nonempty
  have hnonempty' := later.nonempty
  have hlow := hearlier.low
  have hhigh := hearlier.high
  have hlow' := hlater.low
  have hhigh' := hlater.high
  constructor
  · by_contra hbefore
    have hholds := hearlier.holds later.start (by omega) (by omega) hlater.first
    unfold Span.Holds at hholds
    omega
  · by_contra hbehind
    have hholds := hlater.holds (earlier.stop - 1) (by omega) (by omega) hearlier.last
    unfold Span.Holds at hholds
    omega

theorem placedSlices_follow (hstep : 1 ≤ step) (hfuel : paragraph.length ≤ start + fuel) :
    ((placedSlices maxChars step paragraph fuel start).map PlacedSlice.span).Pairwise
      Span.Follows := by
  induction fuel generalizing start with
  | zero => exact List.Pairwise.nil
  | succ fuel ih =>
      rw [placedSlices]
      by_cases hstart : start < paragraph.length
      · rw [if_pos hstart, List.map_append, List.pairwise_append]
        refine ⟨?_, ih (by omega), ?_⟩
        · cases sliceAt maxChars paragraph start with
          | none => exact List.Pairwise.nil
          | some slice => exact List.pairwise_singleton _ _
        · intro earlier hearlier later hlater
          obtain ⟨first, hfirst, rfl⟩ := List.mem_map.mp hearlier
          obtain ⟨second, hsecond, rfl⟩ := List.mem_map.mp hlater
          obtain ⟨k, -, hslice⟩ := (mem_placedSlices hstep (by omega)).mp hsecond
          have hframed := sliceAt_framed hslice
          rw [Nat.add_assoc] at hframed
          exact (sliceAt_framed (Option.mem_toList.mp hfirst)).follows hframed
      · rw [if_neg hstart]
        exact List.Pairwise.nil

/-- The window one stride behind this one is blank, or says something behind its end. -/
def Adds (maxChars step : Nat) (paragraph : JsString) (start : Nat) : Prop :=
  trim ((paragraph.drop (start + step)).take maxChars) ≠ [] →
    trim ((paragraph.drop (start + maxChars)).take step) ≠ []

/-- A slice ends behind the one a stride before it exactly when its window adds something. -/
theorem Adds.of_stop (hlater : sliceAt maxChars paragraph (start + step) = some slice)
    (h : ∀ earlier, sliceAt maxChars paragraph start = some earlier →
      earlier.span.stop < slice.span.stop) : Adds maxChars step paragraph start := by
  intro _
  have hframed := sliceAt_framed hlater
  have hnonempty := slice.span.nonempty
  have hlow := hframed.low
  have hhigh := hframed.high
  refine trim_window_ne_nil_iff.mpr ⟨slice.span.stop - 1, ?_, by omega, hframed.last⟩
  by_contra hinside
  cases hhere : sliceAt maxChars paragraph start with
  | none =>
      refine trim_window_ne_nil_iff.mpr ?_ (sliceAt_eq_none_iff.mp hhere)
      exact ⟨_, by omega, by omega, hframed.last⟩
  | some earlier =>
      have hstop := h earlier hhere
      have hholds := (sliceAt_framed hhere).holds _ (by omega) (by omega) hframed.last
      unfold Span.Holds at hholds
      omega

theorem stops_iff (hstep : 1 ≤ step) (hmax : step ≤ maxChars)
    (hfuel : paragraph.length ≤ start + fuel) :
    ((placedSlices maxChars step paragraph fuel start).map PlacedSlice.span).Pairwise
        (fun earlier later => earlier.stop < later.stop) ↔
      ∀ k, start + (k + 1) * step < paragraph.length →
        Adds maxChars step paragraph (start + k * step) := by
  induction fuel generalizing start with
  | zero =>
      refine iff_of_true List.Pairwise.nil fun k hk => ?_
      omega
  | succ fuel ih =>
      rw [placedSlices]
      by_cases hstart : start < paragraph.length
      case neg =>
        rw [if_neg hstart]
        refine iff_of_true List.Pairwise.nil fun k hk => ?_
        omega
      rw [if_pos hstart, List.map_append, List.pairwise_append, ih (by omega)]
      constructor
      · rintro ⟨-, hrest, hcross⟩ (_ | k) hk
        · intro hsaid
          obtain ⟨later, hlater⟩ := Option.ne_none_iff_exists'.mp
            (mt sliceAt_eq_none_iff.mp hsaid)
          rw [Nat.zero_mul, Nat.add_zero] at hlater hsaid ⊢
          refine Adds.of_stop hlater (fun earlier hearlier => ?_) hsaid
          refine hcross _ (List.mem_map_of_mem (Option.mem_toList.mpr hearlier)) _
            (List.mem_map_of_mem ?_)
          refine (mem_placedSlices hstep (by omega)).mpr ⟨0, by omega, ?_⟩
          rwa [Nat.zero_mul, Nat.add_zero]
        · have hshift : start + step + k * step = start + (k + 1) * step := by ring
          rw [← hshift]
          refine hrest k ?_
          have hnext : start + step + (k + 1) * step = start + (k + 1 + 1) * step := by ring
          rwa [hnext]
      · intro hadds
        refine ⟨?_, fun k hk => ?_, ?_⟩
        · cases sliceAt maxChars paragraph start with
          | none => exact List.Pairwise.nil
          | some slice => exact List.pairwise_singleton _ _
        · have hshift : start + step + k * step = start + (k + 1) * step := by ring
          have hnext : start + step + (k + 1) * step = start + (k + 1 + 1) * step := by ring
          rw [hnext] at hk
          rw [hshift]
          exact hadds (k + 1) hk
        · intro earlier hearlier later hlater
          obtain ⟨first, hfirst, rfl⟩ := List.mem_map.mp hearlier
          obtain ⟨second, hsecond, rfl⟩ := List.mem_map.mp hlater
          obtain ⟨k, hk, hslice⟩ := (mem_placedSlices hstep (by omega)).mp hsecond
          have hframed := sliceAt_framed hslice
          have hbefore := sliceAt_framed (Option.mem_toList.mp hfirst)
          have hwhere : start + step + k * step = start + k * step + step := by ring
          have hnext : start + (k + 1) * step = start + k * step + step := by ring
          rw [hwhere] at hframed hslice hk
          have hsaid : trim ((paragraph.drop (start + k * step + step)).take maxChars) ≠ [] :=
            fun hblank => by
              rw [sliceAt_eq_none_iff.mpr hblank] at hslice
              cases hslice
          obtain ⟨i, hlow, hhigh, hsolid⟩ :=
            trim_window_ne_nil_iff.mp (hadds k (by rwa [hnext]) hsaid)
          have hholds := hframed.holds i (by omega) (by omega) hsolid
          have hhigh' := hbefore.high
          unfold Span.Holds at hholds
          omega

/-! ## Well-formed slices -/

theorem whitespace_plain {u : UInt16} (hu : isWhitespace u = true) : IsPlain u := by
  simp only [isWhitespace, Bool.or_eq_true, Bool.and_eq_true, decide_eq_true_eq, beq_iff_eq,
    UInt16.le_iff_toNat_le, ← UInt16.toNat_inj] at hu
  simp only [IsPlain, Json.isHighSurrogate, Json.isLowSurrogate, Bool.and_eq_false_iff,
    decide_eq_false_iff_not, UInt16.le_iff_toNat_le]
  simp at hu ⊢
  omega

theorem wellFormed_trim {text : JsString} : WellFormed (trim text) ↔ WellFormed text := by
  obtain ⟨before, after, hsplit, hbefore, hafter⟩ := trim_split text
  conv_rhs => rw [hsplit]
  rw [wellFormed_append_plain fun u hu => whitespace_plain (hafter u hu),
    wellFormed_plain_append fun u hu => whitespace_plain (hbefore u hu)]

/-- No cut of a paragraph lies inside a surrogate pair. -/
def CutsBetween (maxChars step : Nat) (paragraph : JsString) : Prop :=
  ∀ k, k * step < paragraph.length →
    lowAt paragraph (k * step) = false ∧ lowAt paragraph (k * step + maxChars) = false

theorem slices_wellFormed_iff (hstep : 1 ≤ step) (hmax : step ≤ maxChars)
    (hparagraph : WellFormed paragraph) :
    (∀ piece ∈ slices maxChars step paragraph.length paragraph, WellFormed piece) ↔
      CutsBetween maxChars step paragraph := by
  have hplaced := map_text_placedSlices maxChars step paragraph paragraph.length 0
  rw [List.drop_zero] at hplaced
  have hmem := @mem_placedSlices maxChars step paragraph 0 paragraph.length
  rw [← hplaced, List.forall_mem_map]
  refine Iff.trans ⟨fun h k hk => ?_, fun h slice hslice => ?_⟩
    (forall₂_congr fun k _ => wellFormed_window_iff hparagraph (by omega))
  · cases hslice : sliceAt maxChars paragraph (k * step) with
    | none =>
        rw [← wellFormed_trim, sliceAt_eq_none_iff.mp hslice]
        exact wellFormed_nil
    | some slice =>
        have hwhole := h slice ((hmem hstep (by omega)).mpr ⟨k, by omega, by
          rwa [Nat.zero_add]⟩)
        rwa [text_sliceAt hslice, wellFormed_trim] at hwhole
  · obtain ⟨k, hk, hat⟩ := (hmem hstep (by omega)).mp hslice
    rw [Nat.zero_add] at hk hat
    rw [text_sliceAt hat, wellFormed_trim]
    exact h k hk

/-! ## The pieces of a text -/

theorem newline_plain : IsPlain 0x0a := whitespace_plain (by decide)

/-- The first piece begins as the text does, and the pieces keep the pairs together. -/
theorem splitParagraphs_paired (inSeparator : Bool) {text : JsString} (h : Paired text) :
    ∃ first rest, splitParagraphs inSeparator text = first :: rest ∧ Paired first ∧
      lowAt first 0 = lowAt text 0 ∧ ∀ piece ∈ rest, WellFormed piece := by
  induction text generalizing inSeparator with
  | nil => exact ⟨[], [], rfl, wellFormed_nil.paired, rfl, by simp⟩
  | cons u text ih =>
      obtain ⟨hnext, hrest⟩ := paired_cons.mp h
      rw [splitParagraphs]
      by_cases hinside : u = 0x0a ∧ inSeparator = true
      · obtain ⟨first, rest, hsplit, hfirst, hlow, hpieces⟩ := ih true hrest
        rw [if_pos hinside]
        refine ⟨first, rest, hsplit, hfirst, ?_, hpieces⟩
        rw [hlow, ← hnext, hinside.1, newline_plain.1, lowAt_cons_zero, newline_plain.2]
      rw [if_neg hinside]
      by_cases hopens : u = 0x0a ∧ text.head? = some 0x0a
      · obtain ⟨first, rest, hsplit, hfirst, hlow, hpieces⟩ := ih true hrest
        rw [if_pos hopens, hsplit]
        refine ⟨[], _, rfl, wellFormed_nil.paired, ?_, ?_⟩
        · rw [hopens.1, lowAt_cons_zero, newline_plain.2]
          rfl
        · intro piece hpiece
          rcases List.mem_cons.mp hpiece with rfl | hlater
          · refine wellFormed_iff.mpr ⟨?_, hfirst⟩
            rw [hlow, ← hnext, hopens.1, newline_plain.1]
          · exact hpieces piece hlater
      · obtain ⟨first, rest, hsplit, hfirst, hlow, hpieces⟩ := ih false hrest
        rw [if_neg hopens, hsplit]
        refine ⟨u :: first, rest, rfl, paired_cons.mpr ⟨?_, hfirst⟩, rfl, hpieces⟩
        rw [hlow, hnext]

/-- The paragraphs that the loop runs over. -/
def paragraphsOf (text : JsString) : List JsString :=
  ((splitParagraphs false text).map trim).filter fun part => !part.isEmpty

theorem paragraphsOf_wellFormed {text : JsString} (h : WellFormed text) :
    ∀ paragraph ∈ paragraphsOf text, WellFormed paragraph := by
  intro paragraph hparagraph
  obtain ⟨part, hpart, rfl⟩ := List.mem_map.mp (List.mem_filter.mp hparagraph).1
  obtain ⟨first, rest, hsplit, hfirst, hlow, hpieces⟩ := splitParagraphs_paired false h.paired
  rw [hsplit] at hpart
  rw [wellFormed_trim]
  rcases List.mem_cons.mp hpart with rfl | hlater
  · exact wellFormed_iff.mpr ⟨hlow.trans h.1, hfirst⟩
  · exact hpieces part hlater

/-- Packing adds nothing that could separate a pair; only slicing does. -/
theorem packParagraphs_wellFormed_iff {overlapChars : Nat} {paragraphs : List JsString}
    (hparagraphs : ∀ paragraph ∈ paragraphs, WellFormed paragraph) {current : JsString}
    (hcurrent : WellFormed current) :
    (∀ piece ∈ packParagraphs maxChars overlapChars paragraphs current, WellFormed piece) ↔
      ∀ paragraph ∈ paragraphs, maxChars < paragraph.length →
        ∀ piece ∈ slices maxChars (max 1 (maxChars - overlapChars)) paragraph.length paragraph,
          WellFormed piece := by
  have hpending : ∀ piece ∈ (if current.isEmpty then [] else [current]), WellFormed piece := by
    intro piece hpiece
    split_ifs at hpiece
    · exact absurd hpiece List.not_mem_nil
    · rwa [List.mem_singleton.mp hpiece]
  induction paragraphs generalizing current with
  | nil => exact iff_of_true (by simpa [packParagraphs] using hpending) (by simp)
  | cons paragraph paragraphs ih =>
      obtain ⟨hparagraph, hrest⟩ := List.forall_mem_cons.mp hparagraphs
      have hsingle : ∀ {text : JsString}, WellFormed text →
          ∀ piece ∈ (if text.isEmpty then [] else [text]), WellFormed piece := by
        intro text htext piece hpiece
        split_ifs at hpiece
        · exact absurd hpiece List.not_mem_nil
        · rwa [List.mem_singleton.mp hpiece]
      have hcandidate : WellFormed (if current.isEmpty then paragraph
          else current ++ [0x0a, 0x0a] ++ paragraph) := by
        split_ifs
        · exact hparagraph
        · refine WellFormed.append ((wellFormed_append_plain ?_).mpr hcurrent) hparagraph
          simp [newline_plain]
      have hlength : paragraph.length ≤ (if current.isEmpty then paragraph
          else current ++ [0x0a, 0x0a] ++ paragraph).length := by
        split_ifs
        · exact Nat.le_refl _
        · rw [List.length_append]
          exact Nat.le_add_left _ _
      rw [packParagraphs, List.forall_mem_cons]
      by_cases hfits : (if current.isEmpty then paragraph
          else current ++ [0x0a, 0x0a] ++ paragraph).length ≤ maxChars
      · rw [if_pos hfits]
        refine (ih hrest hcandidate (hsingle hcandidate)).trans (and_iff_right ?_).symm
        exact fun hlong => absurd hlong (by omega)
      rw [if_neg hfits, List.forall_mem_append, and_iff_right hpending]
      by_cases hshort : paragraph.length ≤ maxChars
      · rw [if_pos hshort]
        refine (ih hrest hparagraph (hsingle hparagraph)).trans (and_iff_right ?_).symm
        exact fun hlong => absurd hlong (by omega)
      · rw [if_neg hshort, List.forall_mem_append]
        refine and_congr ?_ (ih hrest wellFormed_nil (by simp))
        exact ⟨fun h _ => h, fun h => h (not_le.mp hshort)⟩

/-! ## The law of the slices -/

/-- The paragraphs of a text that are sliced. -/
def slicedParagraphs (text : JsString) (maxChars : Nat) : List JsString :=
  if text.length ≤ maxChars then []
  else (paragraphsOf text).filter fun paragraph => maxChars < paragraph.length

/-- The stride of the slices. -/
def stride (options : ChunkPlannerOptions) : Nat :=
  max 1 (options.maxChars.toNat - options.overlapChars.toNat)

/-- What the slices of a text are to keep. -/
structure SlicesKeep (options : ChunkPlannerOptions) (text : JsString) : Prop where
  wellFormed : ∀ piece ∈ splitLongText text options.maxChars.toNat options.overlapChars.toNat,
    WellFormed piece
  /-- Each slice has a position of its paragraph that no earlier one has. -/
  fresh : ∀ paragraph ∈ slicedParagraphs text options.maxChars.toNat,
    Span.Fresh ((placedSlices options.maxChars.toNat (stride options) paragraph
      paragraph.length 0).map PlacedSlice.span)

/-- No cut separates a pair, and no window adds only white space to the one before it. -/
structure CutsWell (maxChars step : Nat) (paragraph : JsString) : Prop where
  between : CutsBetween maxChars step paragraph
  adds : ∀ k, (k + 1) * step < paragraph.length → Adds maxChars step paragraph (k * step)

def samplePolicy : ChunkPlannerOptions := ⟨32, 16⟩

theorem samplePolicy_valid : ValidPolicy samplePolicy := by
  unfold ValidPolicy
  decide

/-- Thirty-one letters and an emoji of two units. -/
def emojiText : JsString := List.replicate 31 0x61 ++ [0xd83d, 0xde00]

theorem emojiText_wellFormed : WellFormed emojiText := by
  have hplain : IsPlain 0x61 := ⟨rfl, rfl⟩
  have hemoji : WellFormed [0xd83d, 0xde00] := ⟨rfl, by decide⟩
  refine (wellFormed_plain_append ?_).mpr hemoji
  intro u hu
  rwa [List.eq_of_mem_replicate hu]

end Embeddings
