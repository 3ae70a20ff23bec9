import MuniRag.Documents.Sections

/-!
# The markdown and the plain-text extractor

`markdownExtractor.ts` and `txtExtractor.ts`.  Markdown has headings of six levels and
inline markup; plain text has headings of one kind, which are guessed from the line.

**Extraction loses nothing** (`sections_lossless`): every line that is not blank is the
heading of its section or a line of its text, once and in order, and the path of a
section is the chain of the headings that are open there.
-/

namespace Documents

open Replacing

def isLineTerminator (u : UInt16) : Bool := u == 0x0a || u == 0x0d || u == 0x2028 || u == 0x2029

/-- `line.match(/^(#{1,6})\s+(.+?)\s*#*\s*$/)`: how many marks, and the captured title. -/
def headingMatch (line : JsString) : Option (Nat × JsString) :=
  let hashes := line.takeWhile fun u => u == 0x23
  let rest := line.drop hashes.length
  let spaces := rest.takeWhile isWhitespace
  let tail := rest.drop spaces.length
  if hashes = [] ∨ 6 < hashes.length ∨ spaces = [] then none
  else if tail = [] then
    -- `\s+` gives back the last unit that `.` takes, and keeps one
    ((spaces.drop 1).reverse.find? fun u => !isLineTerminator u).map fun u => (hashes.length, [u])
  else
    let core := ((tail.rdropWhile isWhitespace).rdropWhile fun u => u == 0x23).rdropWhile isWhitespace
    let title := if core = [] then tail.take 1 else core
    if title.any isLineTerminator then none else some (hashes.length, title)

def markdownLine (line : JsString) : Line :=
  match headingMatch line with
  | some (level, title) => .heading { level, title := stripMarkdownInline title }
  | none => .text (stripMarkdownInline line)

/-- The draft's own article number is that of its heading. -/
def markdownFormat : LineFormat where
  readLine := markdownLine
  push := popAndPush
  firstOrdinal := 0
  fallback title _ := title
  articleNumber draft _ := draft.heading.bind detectArticleNumber
  plainType := .section
  extractor := js "markdown_heading_v1"

def txtLine (line : JsString) : Line :=
  let trimmed := trim line
  if isLikelyHeading trimmed then .heading { level := 1, title := trimmed } else .text line

/-- A heading of a text closes the one before it. -/
def txtFormat : LineFormat where
  readLine := txtLine
  push _ heading := [heading]
  firstOrdinal := 1
  fallback _ draft := js "Seccion " ++ Api.numberText draft.ordinal
  articleNumber _ heading := detectArticleNumber heading
  plainType := .paragraph
  extractor := js "txt_heading_v1"

section Extract

variable {ν : Type} (decoding : Decoding) (number : Nat → ν) (input : ExtractorInput ν)

/-- `extract` of the two extractors. -/
def LineFormat.extract (format : LineFormat) (sourceFormat : SourceFormat) : NormalizedDocument ν :=
  let text := normalizeWhitespace (contentToText decoding input.content)
  { title := input.title
    sourceFormat
    text
    sections := format.sections number input.title (splitLines text)
    metadata := format.documentMetadata input }

def markdownExtractor : NormalizedDocument ν := markdownFormat.extract decoding number input .markdown

def txtExtractor : NormalizedDocument ν := txtFormat.extract decoding number input .txt

end Extract

/-! ## Stripping inline markup takes units away -/

/-- What the rule puts in the place of a match is part of the match. -/
def Shortens (rule : Rule UInt16) : Prop :=
  ∀ matched replacement more, rule matched = some (replacement, more) → ∀ u ∈ replacement, u ∈ matched

theorem mem_replaceAll {rule : Rule UInt16} (hrule : Shortens rule) {text : JsString} :
    ∀ u ∈ replaceAll rule text, u ∈ text :=
  replaceAll_mem (fun _ h => h) fun _ _ _ hsuffix hmatch u hu =>
    hsuffix.subset (hrule _ _ _ hmatch u hu)

theorem labelAndTarget_mem {emptyLabel : Bool} {text label : JsString} {n : Nat}
    (h : labelAndTarget emptyLabel text = some (label, n)) : ∀ u ∈ label, u ∈ text := by
  unfold labelAndTarget at h
  dsimp only at h
  split_ifs at h
  obtain ⟨rfl, -⟩ := Prod.mk.inj (Option.some.inj h)
  exact fun u hu => (List.takeWhile_sublist _).subset hu

theorem imageRule_shortens : Shortens imageRule := by
  intro matched replacement more h u hu
  match matched with
  | [] | [_] => cases h
  | v :: w :: rest =>
      rw [imageRule] at h
      split_ifs at h
      obtain ⟨⟨label, n⟩, hlabel, hpair⟩ := Option.map_eq_some_iff.mp h
      obtain ⟨rfl, -⟩ := Prod.mk.inj hpair
      exact List.mem_cons_of_mem _ (List.mem_cons_of_mem _ (labelAndTarget_mem hlabel u hu))

theorem linkRule_shortens : Shortens linkRule := by
  intro matched replacement more h u hu
  match matched with
  | [] => cases h
  | v :: rest =>
      rw [linkRule] at h
      split_ifs at h
      exact List.mem_cons_of_mem _ (labelAndTarget_mem h u hu)

theorem mem_stripMarkdownInline {value : JsString} :
    ∀ u ∈ stripMarkdownInline value, u ∈ value := by
  intro u hu
  have hkept := mem_trim hu
  rw [List.mem_filter] at hkept
  exact mem_replaceAll imageRule_shortens u (mem_replaceAll linkRule_shortens u hkept.1)

/-! ## The two formats -/

theorem markdownFormat_keepsOpen : markdownFormat.KeepsOpen :=
  ⟨fun _ => True, fun _ _ _ => trivial, fun before heading _ _ =>
    popAndPush_openHeadings before heading⟩

theorem markdownLine_text {line content : JsString} (h : markdownLine line = .text content) :
    ∀ u ∈ content, u ∈ line := by
  unfold markdownLine at h
  split at h
  · cases h
  · obtain rfl := Line.text.inj h
    exact mem_stripMarkdownInline

theorem txtLine_heading {line : JsString} {heading : HeadingState}
    (h : txtLine line = .heading heading) : heading.level = 1 ∧ heading.title ≠ [] := by
  unfold txtLine at h
  dsimp only at h
  split_ifs at h with hlikely
  obtain rfl := Line.heading.inj h
  refine ⟨rfl, fun hempty => ?_⟩
  have hempty : trim line = [] := hempty
  rw [hempty] at hlikely
  exact absurd hlikely (by decide)

theorem txtLine_text {line content : JsString} (h : txtLine line = .text content) :
    ∀ u ∈ content, u ∈ line := by
  unfold txtLine at h
  dsimp only at h
  split_ifs at h
  obtain rfl := Line.text.inj h
  exact fun u hu => hu

/-- Among headings of one level the last one is open. -/
theorem openHeadings_flat {before : List HeadingState} {heading : HeadingState}
    (hbefore : ∀ earlier ∈ before, earlier.level = 1) (hheading : heading.level = 1) :
    openHeadings (before ++ [heading]) = [heading] := by
  have hclosed : (openHeadings before).filter (fun outer => outer.level < heading.level) = [] := by
    refine List.filter_eq_nil_iff.mpr fun earlier hearlier => ?_
    rw [hbefore earlier (openHeadings_subset before earlier hearlier), hheading]
    decide
  rw [openHeadings_concat, hclosed, List.nil_append]

theorem txtFormat_keepsOpen : txtFormat.KeepsOpen :=
  ⟨fun heading => heading.level = 1, fun _ _ h => (txtLine_heading h).1,
    fun _ _ hbefore hheading => (openHeadings_flat hbefore hheading).symm⟩

section Lossless

variable {ν : Type} (decoding : Decoding) (number : Nat → ν) (input : ExtractorInput ν)

theorem markdown_reads :
    ReadsLines number markdownLine input.title (contentToText decoding input.content)
      (markdownExtractor decoding number input) :=
  LineFormat.reads markdownFormat_keepsOpen (fun _ _ h => markdownLine_text h) (fun _ _ => rfl) rfl rfl

theorem txt_reads :
    ReadsLines number txtLine (js "Seccion 1") (contentToText decoding input.content)
      (txtExtractor decoding number input) :=
  LineFormat.reads txtFormat_keepsOpen (fun _ _ h => txtLine_text h)
    (fun draft hdraft => by
      have hfirst : draft.ordinal = 1 := hdraft
      change js "Seccion " ++ Api.numberText draft.ordinal = _
      rw [hfirst]
      decide)
    rfl rfl

/-- The path of a section of a plain text is its heading. -/
theorem txt_path {entry : NormalizedSection ν}
    (hentry : entry ∈ (txtExtractor decoding number input).sections) :
    ∃ heading, entry.heading = some heading ∧ entry.sectionPath = [heading] ∧ heading ≠ [] := by
  have hreads := txt_reads decoding number input
  obtain ⟨first, rest, hfirst, hrest, hlines, hdescribed, -⟩ := hreads.parts
  obtain ⟨place, hplace, hdescribes⟩ := forall₂_left hdescribed hentry
  have hmem := (List.mem_filter.mp hplace).1
  have hread : ∀ part ∈ first :: rest, ∀ heading, part.heading = some heading →
      heading.level = 1 ∧ heading.title ≠ [] := by
    intro part hpart heading hsome
    have hline : Line.heading heading ∈ (first :: rest).flatMap Part.lines :=
      List.mem_flatMap.mpr ⟨part, hpart, by simp [Part.lines, hsome]⟩
    rw [← hlines] at hline
    obtain ⟨line, -, hheading⟩ := List.mem_map.mp hline
    exact txtLine_heading hheading
  have hwhole : located [] (first :: rest) = ([], first) :: located [] rest := by
    simp [located, hfirst]
  rw [hwhole] at hmem
  rcases List.mem_cons.mp hmem with rfl | hlater
  · have hclosed : openHeadings [] = [] := rfl
    refine ⟨js "Seccion 1", ?_, ?_, by decide⟩
    · rw [hdescribes.heading, hfirst]
      rfl
    · rw [hdescribes.path, if_pos hclosed]
  · obtain ⟨before, heading, hbefore, hsome⟩ | ⟨-, hnone, -⟩ :=
      @located_fits txtFormat input.title [] rest hrest [] place hlater 0
    · have hown := hread place.2 (List.mem_cons_of_mem _ (mem_located hlater).1) heading hsome
      have hflat : openHeadings place.1 = [heading] := by
        rw [hbefore]
        refine openHeadings_flat (fun earlier hearlier => ?_) hown.1
        rcases (mem_located hlater).2 earlier (by rw [hbefore]; simp [hearlier]) with
          hnone | ⟨part, hpart, hpartsome⟩
        · exact absurd hnone List.not_mem_nil
        · exact (hread part (List.mem_cons_of_mem _ hpart) earlier hpartsome).1
      refine ⟨heading.title, ?_, ?_, hown.2⟩
      · rw [hdescribes.heading, hsome]
        rfl
      · rw [hdescribes.path, hflat]
        rfl
    · exact absurd hnone (hrest place.2 (mem_located hlater).1)

/-- **Extraction loses nothing.**  The markdown extractor says every line of the source
once, in order, under the chain of the headings that are open there; the plain-text
extractor does so under headings of one level. -/
theorem sections_lossless :
    ReadsLines number markdownLine input.title (contentToText decoding input.content)
        (markdownExtractor decoding number input) ∧
      ReadsLines number txtLine (js "Seccion 1") (contentToText decoding input.content)
        (txtExtractor decoding number input) ∧
      ∀ entry ∈ (txtExtractor decoding number input).sections,
        ∃ heading, entry.heading = some heading ∧ entry.sectionPath = [heading] ∧ heading ≠ [] :=
  ⟨markdown_reads decoding number input, txt_reads decoding number input,
    fun _ hentry => txt_path decoding number input hentry⟩

end Lossless

/-! ## A heading without a text -/

/-- Each section as its heading and then the lines of its text. -/
def headingsAndTexts {ν : Type} (document : NormalizedDocument ν) : List JsString :=
  document.sections.flatMap fun entry => entry.heading.toList ++ said entry.text

/-- On bytes of ASCII. -/
def sampleDecoding : Decoding where
  utf8 bytes := bytes.map UInt8.toUInt16
  windows1252 bytes := bytes.map UInt8.toUInt16

def bareHeading : ExtractorInput Nat where
  title := js "Guía"
  content := .text (js "# Requisitos")
  sourcePath := none
  metadata := none

/-- A heading with nothing under it is found twice, as the heading and as the text. -/
theorem bareHeading_twice :
    ¬ ∀ input : ExtractorInput Nat,
      (headingsAndTexts (markdownExtractor sampleDecoding id input)).length =
        (spoken ((splitLines (contentToText sampleDecoding input.content)).map
          stripMarkdownInline)).length := by
  intro hclaim
  have hbare := hclaim bareHeading
  exact absurd hbare (by decide +kernel)

end Documents
