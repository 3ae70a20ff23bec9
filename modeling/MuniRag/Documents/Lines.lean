import MuniRag.Documents.Normalize
import MuniRag.Lib.Segments

/-!
# What the lines of a text say

A line is read without the white space at its ends, and a blank line is not read.
Trimming a text and normalising it leaves what its lines say as it is
(`said_normalizeWhitespace`).
-/

namespace Documents

/-- The lines that are not blank, trimmed. -/
def spoken (lines : List JsString) : List JsString := (lines.map trim).filter fun line => line ≠ []

/-- What the lines of a text say. -/
def said (text : JsString) : List JsString := spoken (splitLines text)

variable {text line : JsString} {lines : List JsString}

@[simp] theorem spoken_nil : spoken [] = [] := rfl

theorem spoken_append (lines more : List JsString) :
    spoken (lines ++ more) = spoken lines ++ spoken more := by
  simp [spoken]

theorem spoken_cons (line : JsString) (lines : List JsString) :
    spoken (line :: lines) = spoken [line] ++ spoken lines :=
  spoken_append [line] lines

theorem spoken_blank (h : trim line = []) : spoken [line] = [] := by
  simp [spoken, h]

theorem spoken_singleton (h : trim line ≠ []) : spoken [line] = [trim line] := by
  simp [spoken, h]

theorem spoken_congr {more : JsString} (h : trim line = trim more) :
    spoken [line] = spoken [more] := by
  simp [spoken, h]

/-! ## White space at the ends -/

theorem trim_blank_append {blank : JsString} (hblank : ∀ u ∈ blank, isWhitespace u = true)
    (text : JsString) : trim (blank ++ text) = trim text := by
  rw [trim, List.dropWhile_append_of_pos hblank]
  rfl

theorem trim_append_blank {blank : JsString} (hblank : ∀ u ∈ blank, isWhitespace u = true)
    (text : JsString) : trim (text ++ blank) = trim text := by
  by_cases hall : ∀ u ∈ text, isWhitespace u = true
  · have hwhole : ∀ u ∈ text ++ blank, isWhitespace u = true := by
      intro u hu
      rcases List.mem_append.mp hu with h | h
      · exact hall u h
      · exact hblank u h
    rw [trim_eq_nil_iff.mpr (solid_eq_nil_iff.mpr hwhole),
      trim_eq_nil_iff.mpr (solid_eq_nil_iff.mpr hall)]
  · have hstays : (text ++ blank).dropWhile isWhitespace =
        text.dropWhile isWhitespace ++ blank := by
      rw [List.dropWhile_append, if_neg]
      simpa using hall
    have hreverse : ∀ u ∈ blank.reverse, isWhitespace u = true := fun u hu =>
      hblank u (List.mem_reverse.mp hu)
    rw [trim, hstays, List.reverse_append, List.dropWhile_append_of_pos hreverse]
    rfl

/-- A text between the white space at its ends. -/
theorem trim_split (text : JsString) : ∃ before after, text = before ++ trim text ++ after ∧
    (∀ u ∈ before, isWhitespace u = true) ∧ ∀ u ∈ after, isWhitespace u = true := by
  refine ⟨text.takeWhile isWhitespace,
    ((text.dropWhile isWhitespace).reverse.takeWhile isWhitespace).reverse, ?_, ?_, ?_⟩
  · rw [trim, List.append_assoc, ← List.reverse_append, List.takeWhile_append_dropWhile,
      List.reverse_reverse, List.takeWhile_append_dropWhile]
  · intro u hu
    exact List.mem_takeWhile_imp hu
  · intro u hu
    exact List.mem_takeWhile_imp (List.mem_reverse.mp hu)

theorem splitLines_newline (text : JsString) :
    splitLines (0x0a :: text) = [] :: splitLines text := by
  rw [splitLines, List.splitOn_cons_eq_if_modifyHead]
  rfl

theorem splitLines_cons {u : UInt16} (hu : u ≠ 0x0a) (text : JsString) :
    splitLines (u :: text) = (splitLines text).modifyHead (u :: ·) := by
  rw [splitLines, List.splitOn_cons_eq_if_modifyHead, if_neg (by simpa using hu)]
  rfl

theorem exists_splitLines (text : JsString) : ∃ first rest, splitLines text = first :: rest :=
  List.exists_cons_of_ne_nil (List.splitOn_ne_nil _ _)

theorem modifyHead_self (lines : List JsString) :
    lines.modifyHead (fun line => line) = lines := by
  cases lines <;> rfl

theorem said_blank_cons {u : UInt16} (hu : isWhitespace u = true) (text : JsString) :
    said (u :: text) = said text := by
  by_cases hnewline : u = 0x0a
  · subst hnewline
    rw [said, splitLines_newline, spoken_cons, spoken_blank rfl, List.nil_append]
    rfl
  · obtain ⟨first, rest, hsplit⟩ := exists_splitLines text
    have htrim : trim (u :: first) = trim first :=
      @trim_blank_append [u] (by simpa using hu) first
    rw [said, said, splitLines_cons hnewline, hsplit, List.modifyHead_cons, spoken_cons,
      spoken_congr htrim, ← spoken_cons]

theorem said_blank_append {blank : JsString} (hblank : ∀ u ∈ blank, isWhitespace u = true)
    (text : JsString) : said (blank ++ text) = said text := by
  induction blank with
  | nil => rfl
  | cons u blank ih =>
      obtain ⟨hu, hrest⟩ := List.forall_mem_cons.mp hblank
      rw [List.cons_append, said_blank_cons hu, ih hrest]

/-- The last line of a text, with white space behind it, after a line that has begun. -/
theorem spoken_blank_lines {blank : JsString} (hblank : ∀ u ∈ blank, isWhitespace u = true)
    (before : JsString) :
    spoken ((splitLines blank).modifyHead (before ++ ·)) = spoken [before] := by
  induction blank generalizing before with
  | nil =>
      have hnil : splitLines [] = [[]] := rfl
      rw [hnil, List.modifyHead_cons, List.append_nil]
  | cons u blank ih =>
      obtain ⟨hu, hrest⟩ := List.forall_mem_cons.mp hblank
      by_cases hnewline : u = 0x0a
      · subst hnewline
        have hsilent := ih hrest []
        simp only [List.nil_append, modifyHead_self] at hsilent
        rw [splitLines_newline, List.modifyHead_cons, List.append_nil, spoken_cons, hsilent,
          @spoken_blank [] rfl, List.append_nil]
      · have htrim : trim (before ++ [u]) = trim before :=
          trim_append_blank (by simpa using hu) before
        rw [splitLines_cons hnewline, List.modifyHead_modifyHead]
        have hfun : ((fun line => before ++ line) ∘ fun line => u :: line) =
            fun line => (before ++ [u]) ++ line := by
          funext line
          simp
        rw [hfun, ih hrest, spoken_congr htrim]

theorem spoken_append_blank {blank : JsString} (hblank : ∀ u ∈ blank, isWhitespace u = true)
    (text before : JsString) :
    spoken ((splitLines (text ++ blank)).modifyHead (before ++ ·)) =
      spoken ((splitLines text).modifyHead (before ++ ·)) := by
  induction text generalizing before with
  | nil =>
      have hnil : splitLines [] = [[]] := rfl
      rw [List.nil_append, spoken_blank_lines hblank, hnil, List.modifyHead_cons, List.append_nil]
  | cons u text ih =>
      by_cases hnewline : u = 0x0a
      · subst hnewline
        have hrest := ih []
        simp only [List.nil_append, modifyHead_self] at hrest
        rw [List.cons_append, splitLines_newline, splitLines_newline, List.modifyHead_cons,
          List.modifyHead_cons, spoken_cons, hrest, ← spoken_cons]
      · have hfun : ((fun line => before ++ line) ∘ fun line => u :: line) =
            fun line => (before ++ [u]) ++ line := by
          funext line
          simp
        rw [List.cons_append, splitLines_cons hnewline, splitLines_cons hnewline,
          List.modifyHead_modifyHead, List.modifyHead_modifyHead, hfun, ih]

theorem said_append_blank {blank : JsString} (hblank : ∀ u ∈ blank, isWhitespace u = true)
    (text : JsString) : said (text ++ blank) = said text := by
  have h := spoken_append_blank hblank text []
  simp only [List.nil_append, modifyHead_self] at h
  exact h

theorem said_trim (text : JsString) : said (trim text) = said text := by
  obtain ⟨before, after, hsplit, hbefore, hafter⟩ := trim_split text
  conv_rhs => rw [hsplit, said_append_blank hafter, said_blank_append hbefore]

/-! ## Normalised texts -/

theorem splitLines_joinLines (hne : lines ≠ []) (h : ∀ line ∈ lines, 0x0a ∉ line) :
    splitLines (joinLines lines) = lines :=
  Segments.splitOn_intercalate hne h

theorem said_joinLines (h : ∀ line ∈ lines, 0x0a ∉ line) : said (joinLines lines) = spoken lines := by
  by_cases hne : lines = []
  · subst hne
    rfl
  · rw [said, splitLines_joinLines hne h]

theorem newline_not_mem_splitLines (h : line ∈ splitLines text) : 0x0a ∉ line :=
  Segments.not_mem_of_mem_splitOn h

theorem spoken_compactLines (previousBlank : Bool) (lines : List JsString) :
    spoken (compactLines previousBlank lines) = spoken lines := by
  induction lines generalizing previousBlank with
  | nil => rfl
  | cons line lines ih =>
      rw [compactLines]
      by_cases hskip : ((trim line).isEmpty && previousBlank) = true
      · have hblank : trim line = [] := by
          rw [Bool.and_eq_true, List.isEmpty_iff] at hskip
          exact hskip.1
        rw [if_pos hskip, ih, spoken_cons line, spoken_blank hblank, List.nil_append]
      · rw [if_neg hskip, spoken_cons, ih, ← spoken_cons]

theorem compactLines_subset (previousBlank : Bool) (lines : List JsString) :
    ∀ line ∈ compactLines previousBlank lines, line ∈ lines := by
  induction lines generalizing previousBlank with
  | nil => exact fun _ h => h
  | cons first lines ih =>
      intro line hline
      rw [compactLines] at hline
      by_cases hskip : ((trim first).isEmpty && previousBlank) = true
      · rw [if_pos hskip] at hline
        exact List.mem_cons_of_mem _ (ih _ line hline)
      · rw [if_neg hskip] at hline
        rcases List.mem_cons.mp hline with rfl | hrest
        · exact List.mem_cons_self
        · exact List.mem_cons_of_mem _ (ih _ line hrest)

theorem trimEndBlanks_split (line : JsString) : ∃ blank, line = trimEndBlanks line ++ blank ∧
    ∀ u ∈ blank, isWhitespace u = true := by
  refine ⟨(line.reverse.takeWhile fun u => u == 0x20 || u == 0x09).reverse, ?_, ?_⟩
  · rw [trimEndBlanks, List.rdropWhile, ← List.reverse_append, List.takeWhile_append_dropWhile,
      List.reverse_reverse]
  · intro u hu
    have hunit := List.mem_takeWhile_imp (List.mem_reverse.mp hu)
    rcases Bool.or_eq_true _ _ ▸ hunit with h | h
    · rw [eq_of_beq h]
      decide
    · rw [eq_of_beq h]
      decide

theorem spoken_trimEndBlanks (lines : List JsString) :
    spoken (lines.map trimEndBlanks) = spoken lines := by
  have htrim : ∀ line, trim (trimEndBlanks line) = trim line := by
    intro line
    obtain ⟨blank, hsplit, hblank⟩ := trimEndBlanks_split line
    conv_rhs => rw [hsplit, trim_append_blank hblank]
  have hmap : lines.map (fun line => trim (trimEndBlanks line)) = lines.map trim :=
    List.map_congr_left fun line _ => htrim line
  rw [spoken, spoken, List.map_map]
  exact congrArg (List.filter _) hmap

/-- **Normalising changes nothing in what the lines say.** -/
theorem said_normalizeWhitespace (text : JsString) :
    said (normalizeWhitespace text) = said (normalizeLineEndings text) := by
  have hlines : ∀ line ∈ compactLines false
      ((splitLines (normalizeLineEndings text)).map trimEndBlanks), 0x0a ∉ line := by
    intro line hline hnewline
    obtain ⟨source, hsource, rfl⟩ := List.mem_map.mp (compactLines_subset _ _ line hline)
    obtain ⟨blank, hsplit, -⟩ := trimEndBlanks_split source
    refine newline_not_mem_splitLines hsource ?_
    rw [hsplit]
    exact List.mem_append_left _ hnewline
  rw [normalizeWhitespace, said_trim, said_joinLines hlines, spoken_compactLines,
    spoken_trimEndBlanks]
  rfl

/-- A text without carriage returns and null characters. -/
def Plain (text : JsString) : Prop := ∀ u ∈ text, u ≠ 0x0d ∧ u ≠ 0

theorem replaceCrLf_plain (h : ∀ u ∈ text, u ≠ 0x0d) : replaceCrLf text = text := by
  fun_induction replaceCrLf text with
  | case1 => rfl
  | case2 => rfl
  | case3 u v rest hpair ih => exact absurd hpair.1 (h u List.mem_cons_self)
  | case4 u v rest hpair ih => rw [ih fun w hw => h w (List.mem_cons_of_mem _ hw)]

theorem normalizeLineEndings_plain (h : Plain text) : normalizeLineEndings text = text := by
  have hmap : text.map (fun u => if u = 0x0d then 0x0a else u) = text := by
    conv_rhs => rw [← List.map_id text]
    exact List.map_congr_left fun u hu => if_neg (h u hu).1
  rw [normalizeLineEndings, replaceCrLf_plain fun u hu => (h u hu).1, hmap]
  exact List.filter_eq_self.mpr fun u hu => by simpa using (h u hu).2

theorem plain_normalizeLineEndings (text : JsString) : Plain (normalizeLineEndings text) := by
  intro u hu
  rw [normalizeLineEndings, List.mem_filter] at hu
  obtain ⟨v, -, rfl⟩ := List.mem_map.mp hu.1
  refine ⟨?_, by simpa using hu.2⟩
  by_cases hv : v = 0x0d
  · rw [if_pos hv]
    decide
  · rwa [if_neg hv]

theorem mem_trim {u : UInt16} (h : u ∈ trim text) : u ∈ text := by
  obtain ⟨before, after, hsplit, -, -⟩ := trim_split text
  rw [hsplit]
  simp [h]

theorem mem_joinLines {u : UInt16} (hline : line ∈ lines) (hu : u ∈ line) :
    u ∈ joinLines lines := by
  induction lines with
  | nil => exact absurd hline List.not_mem_nil
  | cons first rest ih =>
      cases rest with
      | nil =>
          obtain rfl := List.mem_singleton.mp hline
          simpa [joinLines] using hu
      | cons second rest =>
          rw [joinLines, List.intercalate_cons_cons, ← joinLines]
          rcases List.mem_cons.mp hline with rfl | hrest
          · exact List.mem_append_left _ (List.mem_append_left _ hu)
          · exact List.mem_append_right _ (ih hrest)

theorem mem_splitLines {u : UInt16} (hline : line ∈ splitLines text) (hu : u ∈ line) :
    u ∈ text := by
  have hjoin : joinLines (splitLines text) = text := List.intercalate_splitOn _
  rw [← hjoin]
  exact mem_joinLines hline hu

theorem spoken_eq_nil_iff : spoken lines = [] ↔ lines.flatMap solid = [] := by
  rw [List.flatMap_eq_nil_iff, spoken, List.filter_eq_nil_iff]
  constructor
  · intro h line hline
    have hblank := h (trim line) (List.mem_map.mpr ⟨line, hline, rfl⟩)
    exact trim_eq_nil_iff.mp (by simpa using hblank)
  · intro h line hline
    obtain ⟨source, hsource, rfl⟩ := List.mem_map.mp hline
    simpa using trim_eq_nil_iff.mpr (h source hsource)

/-- A text says nothing exactly when it is blank. -/
theorem said_eq_nil_iff : said text = [] ↔ trim text = [] := by
  rw [said, spoken_eq_nil_iff, flatMap_solid_splitLines, trim_eq_nil_iff]

end Documents
