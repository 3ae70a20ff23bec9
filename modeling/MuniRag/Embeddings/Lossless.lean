import MuniRag.Embeddings.ChunkPlanner

/-!
# Nothing is lost between a section and its chunks

`Reads` says how the chunks of a section are read back: each one starts with a repetition of the
end of what was read before, which may be empty, and goes on with what comes next.
-/

namespace Embeddings

open Documents

/-- The pieces, read from left to right after `before` and without what they repeat of the piece
before them, say `content`. -/
inductive Reads (overlapChars : Nat) : JsString → List JsString → JsString → Prop
  | nil {before} : Reads overlapChars before [] []
  | cons {before piece repeated new pieces content} :
      solid piece = repeated ++ new → repeated <:+ solid before →
      repeated.length ≤ overlapChars → Reads overlapChars piece pieces content →
      Reads overlapChars before (piece :: pieces) (new ++ content)

variable {overlapChars maxChars step fuel : Nat} {before text rest content more : JsString}
  {pieces others : List JsString}

theorem Reads.append (h : Reads overlapChars before pieces content)
    (hothers : ∀ before, Reads overlapChars before others more) :
    Reads overlapChars before (pieces ++ others) (content ++ more) := by
  induction h with
  | nil => exact hothers _
  | cons hpiece hrepeated hlength _ ih =>
      rw [List.append_assoc]
      exact .cons hpiece hrepeated hlength ih

/-- A piece that repeats nothing. -/
theorem Reads.fresh (h : ∀ before, Reads overlapChars before pieces content) :
    Reads overlapChars before (text :: pieces) (solid text ++ content) :=
  @Reads.cons _ _ _ [] _ _ _ rfl (List.nil_suffix) (Nat.zero_le _) (h _)

/-! ## Slices -/

theorem slices_cons (u : UInt16) (rest : JsString) :
    slices maxChars step (fuel + 1) (u :: rest) =
      if (trim ((u :: rest).take maxChars)).isEmpty then
        slices maxChars step fuel ((u :: rest).drop step)
      else trim ((u :: rest).take maxChars) :: slices maxChars step fuel ((u :: rest).drop step) :=
  rfl

theorem slices_bounded : ∀ piece ∈ slices maxChars step fuel rest,
    trim piece ≠ [] ∧ piece.length ≤ maxChars := by
  induction fuel generalizing rest with
  | zero => simp [slices]
  | succ fuel ih =>
      cases rest with
      | nil => simp [slices]
      | cons u rest =>
          rw [slices_cons]
          by_cases hempty : (trim ((u :: rest).take maxChars)).isEmpty = true
          · simp only [hempty, if_true]
            exact ih
          · simp only [hempty, if_false, Bool.false_eq_true]
            refine List.forall_mem_cons.mpr ⟨⟨?_, ?_⟩, ih⟩
            · rw [trim_trim]
              simpa [List.isEmpty_iff] using hempty
            · exact (length_trim_le _).trans (List.length_take_le _ _)

/-- **Slices.**  If the first `covered` units of the rest have been read at the end of the piece
before, the slices of the rest say what comes after them. -/
theorem reads_slices (hstep : 0 < step) (hwindow : step + overlapChars = maxChars) {covered : Nat}
    (hcovered : covered ≤ overlapChars) (hbefore : solid (rest.take covered) <:+ solid before)
    (hfuel : rest.length ≤ fuel) :
    Reads overlapChars before (slices maxChars step fuel rest) (solid (rest.drop covered)) := by
  induction fuel generalizing rest covered before with
  | zero =>
      obtain rfl := List.length_eq_zero_iff.mp (Nat.le_zero.mp hfuel)
      rw [List.drop_nil]
      exact .nil
  | succ fuel ih =>
      cases rest with
      | nil =>
          rw [List.drop_nil]
          exact .nil
      | cons u rest =>
          -- The window repeats its first `covered` units; its end is covered for the next one.
          have hshorter : ((u :: rest).drop step).length ≤ fuel := by
            rw [List.length_drop, List.length_cons] at *
            omega
          have hpiece : solid ((u :: rest).take maxChars) =
              solid ((u :: rest).take covered) ++ solid (((u :: rest).take maxChars).drop covered) := by
            have hinside : (u :: rest).take covered = ((u :: rest).take maxChars).take covered := by
              rw [List.take_take, Nat.min_eq_left (by omega)]
            rw [hinside, ← solid_append, List.take_append_drop]
          have hrest : solid ((u :: rest).drop covered) =
              solid (((u :: rest).take maxChars).drop covered) ++
                solid (((u :: rest).drop step).drop overlapChars) := by
            rw [List.drop_drop, hwindow, ← solid_append, List.drop_take]
            have hdrop : (u :: rest).drop maxChars =
                ((u :: rest).drop covered).drop (maxChars - covered) := by
              rw [List.drop_drop, Nat.add_sub_cancel' (by omega)]
            rw [hdrop, List.take_append_drop]
          have hend : solid (((u :: rest).drop step).take overlapChars) <:+
              solid ((u :: rest).take maxChars) := by
            have hsuffix : ((u :: rest).drop step).take overlapChars =
                ((u :: rest).take maxChars).drop step := by
              rw [List.drop_take, ← hwindow, Nat.add_sub_cancel_left]
            rw [hsuffix]
            exact (List.drop_suffix _ _).filter _
          rw [slices_cons, hrest]
          by_cases hempty : (trim ((u :: rest).take maxChars)).isEmpty = true
          · have hblank : solid ((u :: rest).take maxChars) = [] :=
              trim_eq_nil_iff.mp (List.isEmpty_iff.mp hempty)
            rw [hblank] at hpiece hend
            have hnew := (List.append_eq_nil_iff.mp hpiece.symm).2
            simp only [hempty, if_true]
            rw [hnew, List.nil_append]
            refine ih le_rfl ?_ hshorter
            rw [List.suffix_nil.mp hend]
            exact List.nil_suffix
          · simp only [hempty, if_false, Bool.false_eq_true]
            refine .cons ((solid_trim _).trans hpiece) hbefore ?_ ?_
            · exact (List.length_filter_le _ _).trans
                ((List.length_take_le _ _).trans hcovered)
            · refine ih le_rfl ?_ hshorter
              rw [solid_trim]
              exact hend

/-! ## Paragraphs -/

theorem flatMap_solid_modifyHead (u : UInt16) {parts : List JsString} (h : parts ≠ []) :
    (parts.modifyHead (u :: ·)).flatMap solid = solid [u] ++ parts.flatMap solid := by
  obtain ⟨part, parts, rfl⟩ := List.exists_cons_of_ne_nil h
  rw [List.modifyHead_cons, List.flatMap_cons, List.flatMap_cons, ← List.append_assoc,
    ← solid_append, List.singleton_append]

theorem splitParagraphs_ne_nil (inSeparator : Bool) (text : JsString) :
    splitParagraphs inSeparator text ≠ [] := by
  induction text generalizing inSeparator with
  | nil => simp [splitParagraphs]
  | cons u text ih =>
      rw [splitParagraphs]
      split_ifs
      · exact ih true
      · exact List.cons_ne_nil _ _
      · exact fun h => ih false (by simpa using h)

/-- The separators say nothing. -/
theorem flatMap_solid_splitParagraphs (inSeparator : Bool) (text : JsString) :
    (splitParagraphs inSeparator text).flatMap solid = solid text := by
  have hnewline : ∀ text : JsString, solid (0x0a :: text) = solid text := by
    intro text
    have hblank : isWhitespace 0x0a = true := by decide
    simp [solid, hblank]
  induction text generalizing inSeparator with
  | nil => rfl
  | cons u text ih =>
      rw [splitParagraphs]
      split_ifs with hinside hstart
      · rw [ih, hinside.1, hnewline]
      · rw [List.flatMap_cons, ih, hstart.1, hnewline, solid_nil, List.nil_append]
      · rw [flatMap_solid_modifyHead u (splitParagraphs_ne_nil false text), ih, ← solid_append,
          List.singleton_append]

/-- The paragraphs that are packed. -/
theorem flatMap_solid_paragraphs (parts : List JsString) :
    ((parts.map trim).filter fun part => !part.isEmpty).flatMap solid = parts.flatMap solid := by
  induction parts with
  | nil => rfl
  | cons part parts ih =>
      rw [List.map_cons, List.flatMap_cons]
      by_cases hempty : (trim part).isEmpty = true
      · have hblank : solid part = [] := trim_eq_nil_iff.mp (List.isEmpty_iff.mp hempty)
        rw [List.filter_cons_of_neg (by simpa using hempty), ih, hblank, List.nil_append]
      · rw [List.filter_cons_of_pos (by simpa using hempty), List.flatMap_cons, ih, solid_trim]

theorem isEmpty_of_not {text : JsString} (h : ¬ text.isEmpty = true) : text ≠ [] :=
  fun hnil => h (by rw [hnil]; rfl)

/-- **Packing.**  The chunks say what the pending chunk and the paragraphs say. -/
theorem reads_packParagraphs (hwindow : 1 ≤ maxChars - overlapChars) {paragraphs : List JsString}
    {current : JsString} : ∀ before, Reads overlapChars before
      (packParagraphs maxChars overlapChars paragraphs current)
      (solid current ++ paragraphs.flatMap solid) := by
  induction paragraphs generalizing current with
  | nil =>
      intro before
      rw [packParagraphs, List.flatMap_nil]
      by_cases hempty : current.isEmpty = true
      · rw [if_pos hempty, List.isEmpty_iff.mp hempty]
        exact .nil
      · rw [if_neg hempty]
        exact Reads.fresh fun _ => .nil
  | cons paragraph paragraphs ih =>
      intro before
      have hcandidate : solid (if current.isEmpty then paragraph
          else current ++ [0x0a, 0x0a] ++ paragraph) = solid current ++ solid paragraph := by
        have hseparator : solid [0x0a, 0x0a] = [] := by decide
        by_cases hempty : current.isEmpty = true
        · rw [if_pos hempty, List.isEmpty_iff.mp hempty, solid_nil, List.nil_append]
        · rw [if_neg hempty, solid_append, solid_append, hseparator, List.append_nil]
      rw [packParagraphs, List.flatMap_cons]
      by_cases hfits : (if current.isEmpty then paragraph
          else current ++ [0x0a, 0x0a] ++ paragraph).length ≤ maxChars
      · rw [if_pos hfits, ← List.append_assoc, ← hcandidate]
        exact ih before
      · rw [if_neg hfits]
        refine Reads.append ?_ fun before => ?_
        · by_cases hempty : current.isEmpty = true
          · rw [if_pos hempty, List.isEmpty_iff.mp hempty]
            exact .nil
          · rw [if_neg hempty, ← List.append_nil (solid current)]
            exact Reads.fresh fun _ => .nil
        · by_cases hshort : paragraph.length ≤ maxChars
          · rw [if_pos hshort]
            exact ih before
          · rw [if_neg hshort]
            refine Reads.append ?_ fun before => ih before
            have hstep : 0 < max 1 (maxChars - overlapChars) := by omega
            have hslices : Reads overlapChars before (slices maxChars
                (max 1 (maxChars - overlapChars)) paragraph.length paragraph)
                  (solid (paragraph.drop 0)) :=
              reads_slices hstep (by omega) (Nat.zero_le _) List.nil_suffix le_rfl
            exact hslices

theorem pending_bounded {current : JsString} (hsaid : current ≠ [] → trim current ≠ [])
    (hlength : current.length ≤ maxChars) : ∀ piece ∈ (if current.isEmpty then [] else [current]),
      trim piece ≠ [] ∧ piece.length ≤ maxChars := by
  by_cases hempty : current.isEmpty = true
  · rw [if_pos hempty]
    exact fun piece hpiece => absurd hpiece List.not_mem_nil
  · rw [if_neg hempty]
    intro piece hpiece
    rw [List.mem_singleton.mp hpiece]
    exact ⟨hsaid (isEmpty_of_not hempty), hlength⟩

theorem packParagraphs_bounded {paragraphs : List JsString} {current : JsString}
    (hparagraphs : ∀ paragraph ∈ paragraphs, trim paragraph ≠ [])
    (hsaid : current ≠ [] → trim current ≠ []) (hlength : current.length ≤ maxChars) :
    ∀ piece ∈ packParagraphs maxChars overlapChars paragraphs current,
      trim piece ≠ [] ∧ piece.length ≤ maxChars := by
  induction paragraphs generalizing current with
  | nil => exact pending_bounded hsaid hlength
  | cons paragraph paragraphs ih =>
      obtain ⟨hparagraph, hrest⟩ := List.forall_mem_cons.mp hparagraphs
      have hcandidate : trim (if current.isEmpty then paragraph
          else current ++ [0x0a, 0x0a] ++ paragraph) ≠ [] := by
        rw [Ne, trim_eq_nil_iff] at hparagraph ⊢
        by_cases hempty : current.isEmpty = true
        · rwa [if_pos hempty]
        · rw [if_neg hempty, solid_append]
          exact List.append_ne_nil_of_right_ne_nil _ hparagraph
      rw [packParagraphs]
      by_cases hfits : (if current.isEmpty then paragraph
          else current ++ [0x0a, 0x0a] ++ paragraph).length ≤ maxChars
      · rw [if_pos hfits]
        exact ih hrest (fun _ => hcandidate) hfits
      · rw [if_neg hfits]
        refine List.forall_mem_append.mpr ⟨pending_bounded hsaid hlength, ?_⟩
        by_cases hshort : paragraph.length ≤ maxChars
        · rw [if_pos hshort]
          exact ih hrest (fun _ => hparagraph) hshort
        · rw [if_neg hshort]
          exact List.forall_mem_append.mpr ⟨slices_bounded,
            ih hrest (fun h => absurd rfl h) (Nat.zero_le _)⟩

theorem paragraphs_said (parts : List JsString) :
    ∀ paragraph ∈ (parts.map trim).filter fun part => !part.isEmpty, trim paragraph ≠ [] := by
  intro paragraph hparagraph
  obtain ⟨hmem, hempty⟩ := List.mem_filter.mp hparagraph
  obtain ⟨part, -, rfl⟩ := List.mem_map.mp hmem
  rw [trim_trim]
  simpa [List.isEmpty_iff] using hempty

/-! ## One text -/

/-- **Splitting loses nothing.** -/
theorem reads_splitLongText (hwindow : 1 ≤ maxChars - overlapChars) (text before : JsString) :
    Reads overlapChars before (splitLongText text maxChars overlapChars) (solid text) := by
  rw [splitLongText]
  by_cases hshort : text.length ≤ maxChars
  · rw [if_pos hshort, ← List.append_nil (solid text)]
    exact Reads.fresh fun _ => .nil
  · rw [if_neg hshort]
    have hpacked := @reads_packParagraphs _ _ hwindow
      (((splitParagraphs false text).map trim).filter fun part => !part.isEmpty) [] before
    rwa [flatMap_solid_paragraphs, flatMap_solid_splitParagraphs, solid_nil,
      List.nil_append] at hpacked

theorem splitLongText_bounded (hsaid : trim text ≠ []) :
    ∀ piece ∈ splitLongText text maxChars overlapChars,
      trim piece ≠ [] ∧ piece.length ≤ maxChars := by
  rw [splitLongText]
  by_cases hshort : text.length ≤ maxChars
  · rw [if_pos hshort]
    intro piece hpiece
    rw [List.mem_singleton.mp hpiece]
    exact ⟨hsaid, hshort⟩
  · rw [if_neg hshort]
    exact packParagraphs_bounded (paragraphs_said _) (fun h => absurd rfl h) (Nat.zero_le _)

theorem Reads.ne_nil (h : Reads overlapChars before pieces content) (hcontent : content ≠ []) :
    pieces ≠ [] := by
  rintro rfl
  cases h
  exact hcontent rfl

/-! ## The whole plan -/

section Plan

variable {ν : Type} (numbers : Json.NumberText ν) (sha256Hex : JsString → JsString)
  (document : NormalizedDocument ν) (input : PlanChunksInput)

/-- The texts of the chunks of a section. -/
def sectionTexts (maxChars overlapChars : Nat) (entry : NormalizedSection ν) : List JsString :=
  if (normalizeWhitespace entry.text).isEmpty then []
  else splitLongText (normalizeWhitespace entry.text) maxChars overlapChars

/-- Chunks for texts of sections, numbered from an ordinal on. -/
def chunksFrom : Nat → List (NormalizedSection ν × JsString) → List (EmbeddingChunk ν)
  | _, [] => []
  | chunkOrdinal, (entry, text) :: rest =>
      chunkOf numbers sha256Hex document entry input text chunkOrdinal ::
        chunksFrom (chunkOrdinal + 1) rest

/-- The plan without a limit. -/
def fullPlan (maxChars overlapChars : Nat) : List (EmbeddingChunk ν) :=
  chunksFrom numbers sha256Hex document input 1 (document.sections.flatMap fun entry =>
    (sectionTexts maxChars overlapChars entry).map fun text => (entry, text))

variable {numbers sha256Hex document input} {maxChunks : Nat}
  {progress : Progress ν} {texts : List JsString} {entry : NormalizedSection ν}
  {planned others : List (NormalizedSection ν × JsString)} {sections : List (NormalizedSection ν)}

theorem chunksFrom_append (chunkOrdinal : Nat) :
    chunksFrom numbers sha256Hex document input chunkOrdinal (planned ++ others) =
      chunksFrom numbers sha256Hex document input chunkOrdinal planned ++
        chunksFrom numbers sha256Hex document input (chunkOrdinal + planned.length) others := by
  induction planned generalizing chunkOrdinal with
  | nil => rfl
  | cons head planned ih =>
      rw [List.cons_append, chunksFrom, chunksFrom, ih, List.cons_append, List.length_cons,
        Nat.add_assoc, Nat.add_comm 1]

theorem length_chunksFrom (chunkOrdinal : Nat) :
    (chunksFrom numbers sha256Hex document input chunkOrdinal planned).length =
      planned.length := by
  induction planned generalizing chunkOrdinal with
  | nil => rfl
  | cons head planned ih => simp [chunksFrom, ih]

theorem map_text_chunksFrom (chunkOrdinal : Nat) :
    (chunksFrom numbers sha256Hex document input chunkOrdinal planned).map (·.text) =
      planned.map Prod.snd := by
  induction planned generalizing chunkOrdinal with
  | nil => rfl
  | cons head planned ih => simp [chunksFrom, chunkOf, ih]

theorem map_ordinal_chunksFrom (chunkOrdinal : Nat) :
    (chunksFrom numbers sha256Hex document input chunkOrdinal planned).map (·.chunkOrdinal) =
      List.range' chunkOrdinal planned.length := by
  induction planned generalizing chunkOrdinal with
  | nil => rfl
  | cons head planned ih => simp [chunksFrom, chunkOf, ih, List.range'_succ]

/-- The loops carry on, or return what one chunk too many leaves. -/
def stopAfter (maxChunks : Nat) (progress : Progress ν) :
    Except (List (EmbeddingChunk ν)) (Progress ν) :=
  if progress.chunks.length ≤ maxChunks then .ok progress
  else .error (progress.chunks.take (maxChunks + 1))

/-- What the loops have after some more texts of sections. -/
def Progress.extend (numbers : Json.NumberText ν) (sha256Hex : JsString → JsString)
    (document : NormalizedDocument ν) (input : PlanChunksInput) (progress : Progress ν)
    (planned : List (NormalizedSection ν × JsString)) : Progress ν where
  chunks := progress.chunks ++
    chunksFrom numbers sha256Hex document input progress.chunkOrdinal planned
  chunkOrdinal := progress.chunkOrdinal + planned.length

theorem Progress.extend_nil :
    progress.extend numbers sha256Hex document input [] = progress := by
  simp [Progress.extend, chunksFrom]

theorem Progress.extend_append :
    progress.extend numbers sha256Hex document input (planned ++ others) =
      (progress.extend numbers sha256Hex document input planned).extend numbers sha256Hex document
        input others := by
  simp [Progress.extend, chunksFrom_append, Nat.add_assoc]

theorem pushTexts_eq (h : progress.chunks.length ≤ maxChunks) :
    pushTexts numbers sha256Hex document input maxChunks entry texts progress =
      stopAfter maxChunks (progress.extend numbers sha256Hex document input
        (texts.map fun text => (entry, text))) := by
  induction texts generalizing progress with
  | nil => rw [pushTexts, List.map_nil, Progress.extend_nil, stopAfter, if_pos h]
  | cons text texts ih =>
      rw [pushTexts]
      by_cases hroom : (progress.chunks ++ [chunkOf numbers sha256Hex document entry input text
          progress.chunkOrdinal]).length > maxChunks
      · have hchunks : (progress.extend numbers sha256Hex document input
            ((entry, text) :: texts.map fun text => (entry, text))).chunks =
              (progress.chunks ++ [chunkOf numbers sha256Hex document entry input text
                progress.chunkOrdinal]) ++ chunksFrom numbers sha256Hex document input
                  (progress.chunkOrdinal + 1) (texts.map fun text => (entry, text)) :=
          List.append_cons _ _ _
        have hlength : (progress.chunks ++ [chunkOf numbers sha256Hex document entry
            input text progress.chunkOrdinal]).length = maxChunks + 1 := by
          rw [List.length_append, List.length_singleton] at hroom ⊢
          omega
        have hover : ¬ (progress.extend numbers sha256Hex document input
            ((entry, text) :: texts.map fun text => (entry, text))).chunks.length ≤ maxChunks := by
          rw [hchunks, List.length_append, hlength]
          omega
        rw [if_pos hroom, List.map_cons, stopAfter, if_neg hover, hchunks, ← hlength,
          List.take_left]
      · rw [if_neg hroom, ih (not_lt.mp hroom), List.map_cons]
        have hextend := @Progress.extend_append _ numbers sha256Hex document input progress
          [(entry, text)] (texts.map fun text => (entry, text))
        rw [List.singleton_append] at hextend
        rw [hextend]
        rfl

/-- **Limits.**  A limit cuts the plan off after one chunk too many. -/
theorem planSections_eq (h : progress.chunks.length ≤ maxChunks) :
    planSections numbers sha256Hex document input maxChars overlapChars maxChunks sections progress =
      stopAfter maxChunks (progress.extend numbers sha256Hex document input
        (sections.flatMap fun entry =>
          (sectionTexts maxChars overlapChars entry).map fun text => (entry, text))) := by
  induction sections generalizing progress with
  | nil => rw [planSections, List.flatMap_nil, Progress.extend_nil, stopAfter, if_pos h]
  | cons entry sections ih =>
      rw [planSections, List.flatMap_cons, Progress.extend_append]
      by_cases hblank : (normalizeWhitespace entry.text).isEmpty = true
      · have htexts : sectionTexts maxChars overlapChars entry = [] := if_pos hblank
        rw [if_pos hblank, ih h, htexts, List.map_nil, Progress.extend_nil]
      · have htexts : sectionTexts maxChars overlapChars entry =
            splitLongText (normalizeWhitespace entry.text) maxChars overlapChars := if_neg hblank
        rw [if_neg hblank, pushTexts_eq h, htexts]
        by_cases hroom : (progress.extend numbers sha256Hex document input
            ((splitLongText (normalizeWhitespace entry.text) maxChars overlapChars).map fun text =>
              (entry, text))).chunks.length ≤ maxChunks
        · rw [stopAfter, if_pos hroom]
          exact ih hroom
        · have hmore : ∀ planned : List (NormalizedSection ν × JsString), ¬ ((progress.extend numbers
              sha256Hex document input ((splitLongText (normalizeWhitespace entry.text) maxChars
                overlapChars).map fun text => (entry, text))).extend numbers sha256Hex document input
                  planned).chunks.length ≤ maxChunks := by
            intro planned hle
            rw [Progress.extend, List.length_append] at hle
            exact hroom (le_trans (Nat.le_add_right _ _) hle)
          rw [stopAfter, if_neg hroom, stopAfter, if_neg (hmore _)]
          refine congrArg Except.error ?_
          conv_rhs => rw [Progress.extend]
          exact (List.take_append_of_le_length (by omega)).symm

end Plan

end Embeddings
