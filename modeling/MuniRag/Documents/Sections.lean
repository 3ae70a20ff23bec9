import MuniRag.Documents.Lines
import MuniRag.Documents.Patterns
import MuniRag.Lib.JsMap

/-!
# The loop of the line extractors

`markdownExtractor`, `txtExtractor` and `htmlExtractor` run one loop over the lines of
a text: a heading line closes the draft of the section before it and opens the next
one, any other line joins the open draft.  They differ in how a line is read, what
becomes of the open headings, and what a section without a heading is given; a
`LineFormat` holds these.

What a section should be is said of the parts of a text, a heading with the lines
under it: the path of a part is the chain of the headings that no later one has closed
(`openHeadings`).
-/

namespace Documents

/-- `string | Buffer`. -/
inductive Content
  | text (text : JsString)
  | buffer (bytes : List UInt8)

/-- How the platform decodes bytes. -/
structure Decoding where
  utf8 : List UInt8 → JsString
  windows1252 : List UInt8 → JsString

structure ExtractorInput (ν : Type) where
  title : JsString
  content : Content
  sourcePath : Option JsString
  metadata : Option (Metadata ν)

def contentToText (decoding : Decoding) : Content → JsString
  | .text text => text
  | .buffer bytes => decoding.utf8 bytes

structure HeadingState where
  level : Nat
  title : JsString
  deriving DecidableEq, Repr

/-- How a line is read: as a heading, or as the text that joins the draft. -/
inductive Line
  | heading (heading : HeadingState)
  | text (content : JsString)
  deriving DecidableEq, Repr

structure SectionDraft where
  heading : Option JsString
  sectionPath : List JsString
  textLines : List JsString
  ordinal : Nat

/-- What tells the extractors apart. -/
structure LineFormat where
  readLine : JsString → Line
  /-- The heading stack with one more heading. -/
  push : List HeadingState → HeadingState → List HeadingState
  firstOrdinal : Nat
  /-- The heading of a draft without one, in a document of this title. -/
  fallback : JsString → SectionDraft → JsString
  /-- The article number of a draft whose section has this heading. -/
  articleNumber : SectionDraft → JsString → Option JsString
  /-- The type of a section without a heading. -/
  plainType : SectionType
  extractor : JsString

section Loop

variable {ν : Type} (number : Nat → ν) (format : LineFormat) (title : JsString)

/-- `sectionFromDraft`. -/
def LineFormat.sectionFromDraft (draft : SectionDraft) : Option (NormalizedSection ν) :=
  let text := normalizeWhitespace (joinLines draft.textLines)
  if text = [] ∧ truthy draft.heading = none then none
  else
    let heading := draft.heading.getD (format.fallback title draft)
    let articleNumber := format.articleNumber draft heading
    let sectionPath := if draft.sectionPath ≠ [] then draft.sectionPath else [heading]
    some {
      heading := some heading
      sectionType :=
        if (truthy articleNumber).isSome then .article
        else if (truthy draft.heading).isSome then .heading
        else format.plainType
      sectionPath
      text := if text ≠ [] then text else heading
      pageStart := none
      pageEnd := none
      articleNumber
      citationLabel := some (buildCitationLabel
        { title, sectionPath, heading := some heading, pageStart := none, articleNumber })
      metadata := [(js "ordinal", .number (number draft.ordinal)),
        (js "extractor", .string format.extractor)] }

/-- The variables of the loop. -/
structure Scan (ν : Type) where
  sections : List (NormalizedSection ν)
  headingStack : List HeadingState
  ordinal : Nat
  current : SectionDraft

/-- `flush`. -/
def LineFormat.flush (scan : Scan ν) : List (NormalizedSection ν) :=
  scan.sections ++ (format.sectionFromDraft number title scan.current).toList

/-- The body of the loop. -/
def LineFormat.step (scan : Scan ν) (line : JsString) : Scan ν :=
  match format.readLine line with
  | .heading heading =>
      let headingStack := format.push scan.headingStack heading
      { sections := format.flush number title scan
        headingStack
        ordinal := scan.ordinal + 1
        current := {
          heading := some heading.title
          sectionPath := headingStack.map HeadingState.title
          textLines := []
          ordinal := scan.ordinal + 1 } }
  | .text content =>
      { scan with
        current := { scan.current with textLines := scan.current.textLines ++ [content] } }

def LineFormat.start : Scan ν where
  sections := []
  headingStack := []
  ordinal := format.firstOrdinal
  current := { heading := none, sectionPath := [], textLines := [], ordinal := format.firstOrdinal }

/-- The sections of the lines. -/
def LineFormat.sections (lines : List JsString) : List (NormalizedSection ν) :=
  format.flush number title (lines.foldl (format.step number title) format.start)

/-- `{ ...metadata, sourcePath, extractor }`. -/
def LineFormat.documentMetadata (input : ExtractorInput ν) : Metadata ν :=
  let sourcePath : Json.Value ν := (input.sourcePath.map Json.Value.string).getD .null
  let metadata := JsMap.set (input.metadata.getD []) (js "sourcePath") sourcePath
  JsMap.set metadata (js "extractor") (.string format.extractor)

end Loop

/-! ## The parts of a text -/

/-- A heading of level `l` closes the open headings of level `l` or deeper; these are
the headings that none after them has closed. -/
def openHeadings : List HeadingState → List HeadingState
  | [] => []
  | heading :: later =>
      if ∀ next ∈ later, heading.level < next.level then heading :: openHeadings later
      else openHeadings later

/-- A heading and the texts under it; the first part of a text has no heading. -/
structure Part where
  heading : Option HeadingState
  body : List JsString
  deriving DecidableEq, Repr

/-- The lines of a part. -/
def Part.lines (part : Part) : List Line :=
  (part.heading.map Line.heading).toList ++ part.body.map Line.text

/-- What a part says: its heading, unless that is empty, and the lines under it that are
not blank. -/
def Part.tells (part : Part) : List JsString :=
  (truthy (part.heading.map HeadingState.title)).toList ++ spoken part.body

/-- Each part with the headings up to it, its own included. -/
def located (before : List HeadingState) : List Part → List (List HeadingState × Part)
  | [] => []
  | part :: rest =>
      (before ++ part.heading.toList, part) :: located (before ++ part.heading.toList) rest

/-- What a section takes from a part of the text. -/
structure Describes {ν : Type} (fallback : JsString) (entry : NormalizedSection ν)
    (headings : List HeadingState) (part : Part) : Prop where
  heading : entry.heading = some ((part.heading.map HeadingState.title).getD fallback)
  path : entry.sectionPath =
    if openHeadings headings = [] then [fallback] else (openHeadings headings).map HeadingState.title
  /-- A part with nothing under its heading has the heading as its text. -/
  bare : spoken part.body = [] → some entry.text = entry.heading
  body : spoken part.body ≠ [] → said entry.text = spoken part.body
  levels : (openHeadings headings).Pairwise fun outer inner => outer.level < inner.level

/-- The parts that say something, in order. -/
def kept (parts : List Part) : List (List HeadingState × Part) :=
  (located [] parts).filter fun place => place.2.tells ≠ []

def Line.tells : Line → List JsString
  | .heading entry => (truthy (some entry.title)).toList
  | .text content => spoken [content]

/-! ## Open headings -/

variable {heading : HeadingState} {before : List HeadingState}

theorem openHeadings_subset (headings : List HeadingState) :
    ∀ heading ∈ openHeadings headings, heading ∈ headings := by
  induction headings with
  | nil => exact fun _ h => h
  | cons first later ih =>
      intro heading hheading
      rw [openHeadings] at hheading
      split_ifs at hheading with hopen
      · rcases List.mem_cons.mp hheading with rfl | hlater
        · exact List.mem_cons_self
        · exact List.mem_cons_of_mem _ (ih heading hlater)
      · exact List.mem_cons_of_mem _ (ih heading hheading)

/-- The levels of a chain of open headings increase. -/
theorem openHeadings_increasing (headings : List HeadingState) :
    (openHeadings headings).Pairwise fun outer inner => outer.level < inner.level := by
  induction headings with
  | nil => exact List.Pairwise.nil
  | cons first later ih =>
      rw [openHeadings]
      split_ifs with hopen
      · refine List.pairwise_cons.mpr ⟨fun inner hinner => ?_, ih⟩
        exact hopen inner (openHeadings_subset later inner hinner)
      · exact ih

/-- One more heading closes the open headings of its level or deeper. -/
theorem openHeadings_concat (before : List HeadingState) (heading : HeadingState) :
    openHeadings (before ++ [heading]) =
      (openHeadings before).filter (fun outer => outer.level < heading.level) ++ [heading] := by
  induction before with
  | nil => simp [openHeadings]
  | cons first later ih =>
      rw [List.cons_append, openHeadings, openHeadings, ih]
      have hsplit : (∀ next ∈ later ++ [heading], first.level < next.level) ↔
          (∀ next ∈ later, first.level < next.level) ∧ first.level < heading.level := by
        constructor
        · intro h
          exact ⟨fun next hnext => h next (by simp [hnext]), h heading (by simp)⟩
        · rintro ⟨hlater, hheading⟩ next hnext
          rcases List.mem_append.mp hnext with h | h
          · exact hlater next h
          · rw [List.mem_singleton.mp h]
            exact hheading
      by_cases hopen : ∀ next ∈ later, first.level < next.level
      · by_cases hlevel : first.level < heading.level
        · rw [if_pos (hsplit.mpr ⟨hopen, hlevel⟩), if_pos hopen, List.filter_cons,
            if_pos (by simpa using hlevel), List.cons_append]
        · rw [if_neg fun h => hlevel (hsplit.mp h).2, if_pos hopen, List.filter_cons,
            if_neg (by simpa using hlevel)]
      · rw [if_neg fun h => hopen (hsplit.mp h).1, if_neg hopen]

/-- On a chain of increasing levels, popping and closing are the same. -/
theorem rdropWhile_increasing {chain : List HeadingState} (level : Nat)
    (h : chain.Pairwise fun outer inner => outer.level < inner.level) :
    chain.rdropWhile (fun entry => decide (level ≤ entry.level)) =
      chain.filter fun entry => entry.level < level := by
  induction chain using List.reverseRecOn with
  | nil => rfl
  | append_singleton chain last ih =>
      rw [List.pairwise_append] at h
      by_cases hlast : level ≤ last.level
      · rw [List.rdropWhile_concat_pos _ _ _ (by simpa using hlast), ih h.1, List.filter_append,
          List.filter_cons, if_neg (by simpa using hlast), List.filter_nil, List.append_nil]
      · have hall : ∀ entry ∈ chain ++ [last], entry.level < level := by
          intro entry hentry
          rcases List.mem_append.mp hentry with hchain | hsingle
          · have hbelow := h.2.2 entry hchain last (by simp)
            omega
          · rw [List.mem_singleton.mp hsingle]
            omega
        rw [List.rdropWhile_concat_neg _ _ _ (by simpa using hlast)]
        exact (List.filter_eq_self.mpr fun entry hentry => by simpa using hall entry hentry).symm

/-- Popping the headings of the level or deeper, then pushing the heading. -/
def popAndPush (headingStack : List HeadingState) (heading : HeadingState) : List HeadingState :=
  headingStack.rdropWhile (fun entry => decide (heading.level ≤ entry.level)) ++ [heading]

theorem popAndPush_openHeadings (before : List HeadingState) (heading : HeadingState) :
    popAndPush (openHeadings before) heading = openHeadings (before ++ [heading]) := by
  rw [popAndPush, rdropWhile_increasing _ (openHeadings_increasing before), openHeadings_concat]

theorem openHeadings_ne_nil : openHeadings (before ++ [heading]) ≠ [] := by
  rw [openHeadings_concat]
  exact List.append_ne_nil_of_right_ne_nil _ (List.cons_ne_nil _ _)

/-! ## The loop gathers the parts -/

/-- The open part and the parts after it, over the lines that are still to be read. -/
def gather (part : Part) : List Line → List Part
  | [] => [part]
  | .heading heading :: lines => part :: gather { heading := some heading, body := [] } lines
  | .text content :: lines => gather { part with body := part.body ++ [content] } lines

theorem lines_gather (part : Part) (lines : List Line) :
    (gather part lines).flatMap Part.lines = part.lines ++ lines := by
  induction lines generalizing part with
  | nil => simp [gather]
  | cons line lines ih =>
      cases line with
      | heading heading => simp [gather, ih, Part.lines]
      | text content => simp [gather, ih, Part.lines]

/-- Only the first of the gathered parts may lack a heading. -/
theorem gather_shape (part : Part) (lines : List Line) :
    ∃ body rest, gather part lines = { heading := part.heading, body } :: rest ∧
      ∀ next ∈ rest, next.heading ≠ none := by
  induction lines generalizing part with
  | nil => exact ⟨part.body, [], rfl, by simp⟩
  | cons line lines ih =>
      cases line with
      | heading heading =>
          obtain ⟨body, rest, hgather, hrest⟩ := ih { heading := some heading, body := [] }
          refine ⟨part.body, _, rfl, ?_⟩
          rw [hgather]
          intro next hnext
          rcases List.mem_cons.mp hnext with rfl | hlater
          · exact Option.some_ne_none heading
          · exact hrest next hlater
      | text content => exact ih { part with body := part.body ++ [content] }

/-- The draft of a part. -/
def draftOf (headings : List HeadingState) (part : Part) (ordinal : Nat) : SectionDraft where
  heading := part.heading.map HeadingState.title
  sectionPath := (openHeadings headings).map HeadingState.title
  textLines := part.body
  ordinal

/-- The drafts of the parts, numbered. -/
def draftsFrom : Nat → List (List HeadingState × Part) → List SectionDraft
  | _, [] => []
  | ordinal, place :: rest => draftOf place.1 place.2 ordinal :: draftsFrom (ordinal + 1) rest

section Gathering

variable {ν : Type} {number : Nat → ν} {format : LineFormat} {title : JsString}

/-- The format keeps the open headings, as far as its own headings go. -/
def LineFormat.KeepsOpen (format : LineFormat) : Prop :=
  ∃ own : HeadingState → Prop, (∀ line heading, format.readLine line = .heading heading → own heading) ∧
    ∀ before heading, (∀ earlier ∈ before, own earlier) → own heading →
      format.push (openHeadings before) heading = openHeadings (before ++ [heading])

/-- The loop over the lines, from a draft of the open part on. -/
theorem flush_foldl {own : HeadingState → Prop}
    (hown : ∀ line heading, format.readLine line = .heading heading → own heading)
    (hpush : ∀ before heading, (∀ earlier ∈ before, own earlier) → own heading →
      format.push (openHeadings before) heading = openHeadings (before ++ [heading]))
    (lines : List JsString) (before : List HeadingState) (part : Part) (scan : Scan ν)
    (hbefore : ∀ earlier ∈ before ++ part.heading.toList, own earlier)
    (hstack : scan.headingStack = openHeadings (before ++ part.heading.toList))
    (hcurrent : scan.current = draftOf (before ++ part.heading.toList) part scan.ordinal) :
    format.flush number title (lines.foldl (format.step number title) scan) =
      scan.sections ++ (draftsFrom scan.ordinal
        (located before (gather part (lines.map format.readLine)))).filterMap
          (format.sectionFromDraft number title) := by
  induction lines generalizing before part scan with
  | nil =>
      rw [List.foldl_nil, LineFormat.flush, List.map_nil, gather, located, located, draftsFrom,
        draftsFrom, hcurrent, List.filterMap_cons, List.filterMap_nil]
      cases format.sectionFromDraft number title
        (draftOf (before ++ part.heading.toList) part scan.ordinal) <;> rfl
  | cons line lines ih =>
      rw [List.foldl_cons, List.map_cons]
      cases hread : format.readLine line with
      | heading heading =>
          have hheading : own heading := hown line heading hread
          have hstep : format.push (openHeadings (before ++ part.heading.toList)) heading =
              openHeadings (before ++ part.heading.toList ++ [heading]) :=
            hpush _ heading hbefore hheading
          have hnext := ih (before ++ part.heading.toList) { heading := some heading, body := [] }
            (format.step number title scan line) (by
              intro earlier hearlier
              rcases List.mem_append.mp hearlier with h | h
              · exact hbefore earlier h
              · rw [List.mem_singleton.mp h]
                exact hheading)
            (by simp only [LineFormat.step, hread, hstack, hstep, Option.toList_some])
            (by simp only [LineFormat.step, hread, hstack, hstep, draftOf, Option.toList_some,
                  Option.map_some])
          rw [hnext]
          simp only [LineFormat.step, hread, LineFormat.flush, gather, located, draftsFrom,
            hcurrent, List.filterMap_cons]
          cases format.sectionFromDraft number title
            (draftOf (before ++ part.heading.toList) part scan.ordinal) <;> simp
      | text content =>
          have hnext := ih before { part with body := part.body ++ [content] }
            (format.step number title scan line) hbefore
            (by simp only [LineFormat.step, hread, hstack])
            (by simp only [LineFormat.step, hread, hcurrent, draftOf])
          rw [hnext]
          simp only [LineFormat.step, hread, gather]

/-- **The sections are those of the parts.** -/
theorem sections_eq (hkeeps : format.KeepsOpen) (lines : List JsString) :
    format.sections number title lines =
      (draftsFrom format.firstOrdinal (located [] (gather { heading := none, body := [] }
        (lines.map format.readLine)))).filterMap (format.sectionFromDraft number title) := by
  obtain ⟨own, hown, hpush⟩ := hkeeps
  have hloop := @flush_foldl ν number format title own hown hpush lines [] { heading := none, body := [] }
    format.start (by simp) rfl rfl
  rw [LineFormat.sections, hloop]
  rfl

/-! ## The sections describe the parts -/

/-- A text line whose units survive normalising. -/
def IsLine (line : JsString) : Prop := ∀ u ∈ line, u ≠ 0x0a ∧ u ≠ 0x0d ∧ u ≠ 0

theorem said_body {body : List JsString} (h : ∀ line ∈ body, IsLine line) :
    said (normalizeWhitespace (joinLines body)) = spoken body := by
  have hplain : Plain (joinLines body) := by
    have hmem : ∀ lines : List JsString, (∀ line ∈ lines, IsLine line) → Plain (joinLines lines) := by
      intro lines hlines
      induction lines with
      | nil => exact fun u hu => absurd hu List.not_mem_nil
      | cons first rest ih =>
          obtain ⟨hfirst, hrest⟩ := List.forall_mem_cons.mp hlines
          have hline : Plain first := fun u hu => (hfirst u hu).2
          cases rest with
          | nil => simpa [joinLines] using hline
          | cons second rest =>
              rw [joinLines, List.intercalate_cons_cons, ← joinLines]
              intro u hu
              simp only [List.mem_append, List.mem_singleton] at hu
              rcases hu with (hu | rfl) | hu
              · exact hline u hu
              · decide
              · exact ih hrest u hu
    exact hmem body h
  rw [said_normalizeWhitespace, normalizeLineEndings_plain hplain,
    said_joinLines fun line hline hnewline => (h line hline _ hnewline).1 rfl]

/-- The text of a body is empty exactly when the body says nothing. -/
theorem body_text_eq_nil {body : List JsString} (h : ∀ line ∈ body, IsLine line) :
    normalizeWhitespace (joinLines body) = [] ↔ spoken body = [] := by
  rw [← said_body h, said_eq_nil_iff, trim_normalizeWhitespace]

/-- A part without a heading has the open headings of the parts before it; only the first
part can, and it has none. -/
def Fits (format : LineFormat) (title fallback : JsString) (place : List HeadingState × Part)
    (ordinal : Nat) : Prop :=
  (∃ before heading, place.1 = before ++ [heading] ∧ place.2.heading = some heading) ∨
    (place.1 = [] ∧ place.2.heading = none ∧
      format.fallback title (draftOf [] place.2 ordinal) = fallback)

/-- What a draft gives its section. -/
theorem sectionFromDraft_some {draft : SectionDraft} {entry : NormalizedSection ν}
    (h : format.sectionFromDraft number title draft = some entry) :
    entry.heading = some (draft.heading.getD (format.fallback title draft)) ∧
      entry.sectionPath = (if draft.sectionPath ≠ [] then draft.sectionPath
        else [draft.heading.getD (format.fallback title draft)]) ∧
      entry.text = (if normalizeWhitespace (joinLines draft.textLines) ≠ [] then
        normalizeWhitespace (joinLines draft.textLines)
        else draft.heading.getD (format.fallback title draft)) ∧
      (js "ordinal", .number (number draft.ordinal)) ∈ entry.metadata := by
  unfold LineFormat.sectionFromDraft at h
  dsimp only at h
  by_cases hdrop : normalizeWhitespace (joinLines draft.textLines) = [] ∧
      truthy draft.heading = none
  · rw [if_pos hdrop] at h
    cases h
  · rw [if_neg hdrop] at h
    obtain rfl := Option.some.inj h
    exact ⟨rfl, rfl, rfl, List.mem_cons_self⟩

theorem sectionFromDraft_eq_none_iff {draft : SectionDraft} :
    format.sectionFromDraft number title draft = none ↔
      normalizeWhitespace (joinLines draft.textLines) = [] ∧ truthy draft.heading = none := by
  unfold LineFormat.sectionFromDraft
  dsimp only
  by_cases hdrop : normalizeWhitespace (joinLines draft.textLines) = [] ∧
      truthy draft.heading = none
  · rw [if_pos hdrop]
    exact iff_of_true rfl hdrop
  · rw [if_neg hdrop]
    exact iff_of_false (Option.some_ne_none _) hdrop

/-- The section of one part. -/
theorem section_of_part {fallback : JsString} {headings : List HeadingState} {part : Part}
    {ordinal : Nat} {entry : NormalizedSection ν} (hbody : ∀ line ∈ part.body, IsLine line)
    (hfits : Fits format title fallback (headings, part) ordinal)
    (hentry : format.sectionFromDraft number title (draftOf headings part ordinal) = some entry) :
    Describes fallback entry headings part := by
  obtain ⟨hheading, hpath, htext, -⟩ := sectionFromDraft_some hentry
  have hplaces : (∃ before heading, headings = before ++ [heading] ∧ part.heading = some heading) ∨
      (headings = [] ∧ part.heading = none ∧
        format.fallback title (draftOf [] part ordinal) = fallback) := hfits
  have hname : (draftOf headings part ordinal).heading.getD
      (format.fallback title (draftOf headings part ordinal)) =
        (part.heading.map HeadingState.title).getD fallback := by
    rcases hplaces with ⟨before, heading, -, hsome⟩ | ⟨rfl, hnothing, hfallback⟩
    · simp only [draftOf, hsome, Option.map_some, Option.getD_some]
    · rw [hfallback]
      rfl
  rw [hname] at hheading hpath htext
  have hlines : (draftOf headings part ordinal).textLines = part.body := rfl
  rw [hlines] at htext
  refine ⟨hheading, ?_, ?_, ?_, openHeadings_increasing headings⟩
  · rw [hpath]
    rcases hplaces with ⟨before, heading, rfl, -⟩ | ⟨rfl, hnothing, -⟩
    · have hopen : openHeadings (before ++ [heading]) ≠ [] := openHeadings_ne_nil
      have hchain : (draftOf (before ++ [heading]) part ordinal).sectionPath ≠ [] := by
        simpa [draftOf] using hopen
      rw [if_pos hchain, if_neg hopen]
      rfl
    · have hclosed : openHeadings [] = [] := rfl
      rw [if_neg (by simp [draftOf, openHeadings]), if_pos hclosed, hnothing]
      rfl
  · intro hbare
    rw [htext, if_neg (not_not_intro ((body_text_eq_nil hbody).mpr hbare)), hheading]
  · intro hspoken
    rw [htext, if_pos fun h => hspoken ((body_text_eq_nil hbody).mp h), said_body hbody]

/-- A part that says nothing has no section. -/
theorem dropped_iff {headings : List HeadingState} {part : Part} {ordinal : Nat}
    (hbody : ∀ line ∈ part.body, IsLine line) :
    format.sectionFromDraft number title (draftOf headings part ordinal) = none ↔
      part.tells = [] := by
  rw [sectionFromDraft_eq_none_iff, Part.tells, List.append_eq_nil_iff, Option.toList_eq_nil_iff,
    ← body_text_eq_nil hbody, And.comm]
  rfl

/-- The sections of numbered parts. -/
theorem sections_describe {fallback : JsString} {places : List (List HeadingState × Part)}
    (ordinal : Nat) (hbody : ∀ place ∈ places, ∀ line ∈ place.2.body, IsLine line)
    (hfits : ∀ i place, places[i]? = some place →
      Fits format title fallback place (ordinal + i)) :
    ∃ ordinals : List Nat, (∀ n ∈ ordinals, ordinal ≤ n) ∧ ordinals.Pairwise (· < ·) ∧
      List.Forall₂ (fun (entry : NormalizedSection ν) n =>
          (js "ordinal", .number (number n)) ∈ entry.metadata)
        ((draftsFrom ordinal places).filterMap (format.sectionFromDraft number title)) ordinals ∧
      List.Forall₂ (fun entry place => Describes fallback entry place.1 place.2)
        ((draftsFrom ordinal places).filterMap (format.sectionFromDraft number title))
        (places.filter fun place => place.2.tells ≠ []) := by
  induction places generalizing ordinal with
  | nil => exact ⟨[], by simp, List.Pairwise.nil, List.Forall₂.nil, List.Forall₂.nil⟩
  | cons place places ih =>
      obtain ⟨hplace, hplaces⟩ := List.forall_mem_cons.mp hbody
      have hlater : ∀ i next, places[i]? = some next →
          Fits format title fallback next (ordinal + 1 + i) := by
        intro i next hnext
        have hfit := hfits (i + 1) next (by simpa using hnext)
        rwa [Nat.add_right_comm, Nat.add_assoc]
      have hhere : Fits format title fallback place ordinal := hfits 0 place rfl
      obtain ⟨ordinals, hfrom, hincreasing, hnumbered, hdescribed⟩ := ih (ordinal + 1) hplaces hlater
      rw [draftsFrom]
      cases hentry : format.sectionFromDraft number title (draftOf place.1 place.2 ordinal) with
      | none =>
          have hsilent : place.2.tells = [] := (dropped_iff hplace).mp hentry
          rw [List.filterMap_cons_none hentry, List.filter_cons, if_neg (by simpa using hsilent)]
          exact ⟨ordinals, fun n hn => Nat.le_of_succ_le (hfrom n hn), hincreasing, hnumbered,
            hdescribed⟩
      | some entry =>
          have htells : place.2.tells ≠ [] := by
            intro hsilent
            rw [(dropped_iff hplace).mpr hsilent] at hentry
            cases hentry
          rw [List.filterMap_cons_some hentry, List.filter_cons, if_pos (by simpa using htells)]
          refine ⟨ordinal :: ordinals, ?_, ?_,
            List.Forall₂.cons (sectionFromDraft_some hentry).2.2.2 hnumbered,
            List.Forall₂.cons (section_of_part hplace hhere hentry) hdescribed⟩
          · intro n hn
            rcases List.mem_cons.mp hn with rfl | hn
            · exact Nat.le_refl _
            · exact Nat.le_of_succ_le (hfrom n hn)
          · exact List.pairwise_cons.mpr ⟨fun n hn => hfrom n hn, hincreasing⟩

end Gathering

/-! ## Nothing is lost -/

/-- What the sections of a document make of the lines of its source. -/
structure ReadsLines {ν : Type} (number : Nat → ν) (readLine : JsString → Line)
    (fallback source : JsString) (document : NormalizedDocument ν) : Prop where
  /-- The text says what the source says. -/
  source : said document.text = said (normalizeLineEndings source)
  /-- The lines fall into parts, each part that says something has its section, in order,
  and together these parts say what the lines say. -/
  parts : ∃ first rest, first.heading = none ∧ (∀ part ∈ rest, part.heading ≠ none) ∧
    (splitLines document.text).map readLine = (first :: rest).flatMap Part.lines ∧
    List.Forall₂ (fun entry place => Describes fallback entry place.1 place.2) document.sections
      (kept (first :: rest)) ∧
    (kept (first :: rest)).flatMap (fun place => place.2.tells) =
      ((splitLines document.text).map readLine).flatMap Line.tells
  /-- No path has an empty title unless a heading, or the fallback, is empty. -/
  titles : fallback ≠ [] →
    (∀ heading, Line.heading heading ∈ (splitLines document.text).map readLine →
      heading.title ≠ []) →
    ∀ entry ∈ document.sections, ∀ title ∈ entry.sectionPath, title ≠ []
  ordinals : ∃ ordinals : List Nat, ordinals.Pairwise (· < ·) ∧
    List.Forall₂ (fun entry n => (js "ordinal", .number (number n)) ∈ entry.metadata)
      document.sections ordinals

theorem mem_joinLines_cases {lines : List JsString} {u : UInt16} (h : u ∈ joinLines lines) :
    u = 0x0a ∨ ∃ line ∈ lines, u ∈ line := by
  induction lines with
  | nil => exact absurd h List.not_mem_nil
  | cons first rest ih =>
      cases rest with
      | nil => exact .inr ⟨first, List.mem_cons_self, by simpa [joinLines] using h⟩
      | cons second rest =>
          rw [joinLines, List.intercalate_cons_cons, ← joinLines] at h
          simp only [List.mem_append, List.mem_singleton] at h
          rcases h with (hfirst | rfl) | hrest
          · exact .inr ⟨first, List.mem_cons_self, hfirst⟩
          · exact .inl rfl
          · rcases ih hrest with rfl | ⟨line, hline, hu⟩
            · exact .inl rfl
            · exact .inr ⟨line, List.mem_cons_of_mem _ hline, hu⟩

/-- The lines of a normalised text. -/
theorem isLine_of_mem {source line : JsString} (h : line ∈ splitLines (normalizeWhitespace source)) :
    IsLine line := by
  intro u hu
  refine ⟨fun hnewline => newline_not_mem_splitLines h (hnewline ▸ hu), ?_⟩
  have hmem := mem_trim (mem_splitLines h hu)
  rcases mem_joinLines_cases hmem with rfl | ⟨compact, hcompact, hunit⟩
  · decide
  · obtain ⟨plain, hplain, rfl⟩ := List.mem_map.mp (compactLines_subset _ _ compact hcompact)
    obtain ⟨blank, hsplit, -⟩ := trimEndBlanks_split plain
    have hline : u ∈ plain := by
      rw [hsplit]
      exact List.mem_append_left _ hunit
    exact plain_normalizeLineEndings source u (mem_splitLines hplain hline)

theorem tells_lines (part : Part) : part.lines.flatMap Line.tells = part.tells := by
  have hbody : ∀ body : List JsString,
      (body.map Line.text).flatMap Line.tells = spoken body := by
    intro body
    induction body with
    | nil => rfl
    | cons line body ih =>
        rw [List.map_cons, List.flatMap_cons, ih, spoken_cons]
        rfl
  rw [Part.lines, List.flatMap_append, hbody, Part.tells]
  cases part.heading <;> simp [Line.tells, truthy]

theorem kept_tells (parts : List Part) :
    (kept parts).flatMap (fun place => place.2.tells) = parts.flatMap Part.tells := by
  have hlocated : ∀ (parts : List Part) (before : List HeadingState),
      ((located before parts).filter fun place => place.2.tells ≠ []).flatMap
        (fun place => place.2.tells) = parts.flatMap Part.tells := by
    intro parts
    induction parts with
    | nil => exact fun _ => rfl
    | cons part parts ih =>
        intro before
        rw [located, List.filter_cons, List.flatMap_cons]
        by_cases htells : part.tells = []
        · rw [if_neg (by simpa using htells), htells, List.nil_append, ih]
        · rw [if_pos (by simpa using htells), List.flatMap_cons, ih]
  exact hlocated parts []

/-- The headings up to a part are headings of the parts. -/
theorem mem_located {before : List HeadingState} {parts : List Part}
    {place : List HeadingState × Part} (h : place ∈ located before parts) :
    place.2 ∈ parts ∧ ∀ heading ∈ place.1, heading ∈ before ∨
      ∃ part ∈ parts, part.heading = some heading := by
  induction parts generalizing before with
  | nil => exact absurd h List.not_mem_nil
  | cons part parts ih =>
      have hown : ∀ heading ∈ before ++ part.heading.toList, heading ∈ before ∨
          ∃ next ∈ part :: parts, next.heading = some heading := by
        intro heading hheading
        rcases List.mem_append.mp hheading with hbefore | hhere
        · exact .inl hbefore
        · exact .inr ⟨part, List.mem_cons_self, Option.mem_toList.mp hhere⟩
      rcases List.mem_cons.mp h with rfl | hrest
      · exact ⟨List.mem_cons_self, hown⟩
      · obtain ⟨hmem, hheadings⟩ := ih hrest
        refine ⟨List.mem_cons_of_mem _ hmem, fun heading hheading => ?_⟩
        rcases hheadings heading hheading with hbefore | ⟨next, hnext, hsome⟩
        · exact hown heading hbefore
        · exact .inr ⟨next, List.mem_cons_of_mem _ hnext, hsome⟩

/-- Behind the first part, the headings up to a part end in its own. -/
theorem located_fits {format : LineFormat} {title fallback : JsString} {parts : List Part}
    (hparts : ∀ part ∈ parts, part.heading ≠ none) (before : List HeadingState)
    {place : List HeadingState × Part} (h : place ∈ located before parts) (ordinal : Nat) :
    Fits format title fallback place ordinal := by
  induction parts generalizing before with
  | nil => exact absurd h List.not_mem_nil
  | cons part parts ih =>
      obtain ⟨hpart, hrest⟩ := List.forall_mem_cons.mp hparts
      rcases List.mem_cons.mp h with rfl | hlater
      · obtain ⟨heading, hheading⟩ := Option.ne_none_iff_exists'.mp hpart
        exact .inl ⟨before, heading, by simp [hheading], hheading⟩
      · exact ih hrest _ hlater

theorem forall₂_left {α β : Type*} {R : α → β → Prop} {xs : List α} {ys : List β} {x : α}
    (h : List.Forall₂ R xs ys) (hx : x ∈ xs) : ∃ y ∈ ys, R x y := by
  induction h with
  | nil => exact absurd hx List.not_mem_nil
  | cons hhead _ ih =>
      rcases List.mem_cons.mp hx with rfl | hrest
      · exact ⟨_, List.mem_cons_self, hhead⟩
      · obtain ⟨y, hy, hR⟩ := ih hrest
        exact ⟨y, List.mem_cons_of_mem _ hy, hR⟩

/-- **The loop loses nothing.** -/
theorem LineFormat.reads {ν : Type} {number : Nat → ν} {format : LineFormat}
    {title fallback source : JsString} {document : NormalizedDocument ν} (hkeeps : format.KeepsOpen)
    (hsub : ∀ line content, format.readLine line = .text content → ∀ u ∈ content, u ∈ line)
    (hfallback : ∀ draft : SectionDraft, draft.ordinal = format.firstOrdinal →
      format.fallback title draft = fallback)
    (htext : document.text = normalizeWhitespace source)
    (hsections : document.sections = format.sections number title (splitLines document.text)) :
    ReadsLines number format.readLine fallback source document := by
  obtain ⟨body, rest, hgather, hrest⟩ := gather_shape { heading := none, body := [] }
    ((splitLines document.text).map format.readLine)
  have hlines := lines_gather { heading := none, body := [] }
    ((splitLines document.text).map format.readLine)
  rw [hgather] at hlines
  have hbodies : ∀ place ∈ located [] ({ heading := none, body } :: rest),
      ∀ line ∈ place.2.body, IsLine line := by
    intro place hplace line hline
    have hmem : Line.text line ∈ ({ heading := none, body } :: rest).flatMap Part.lines := by
      refine List.mem_flatMap.mpr ⟨place.2, (mem_located hplace).1, ?_⟩
      exact List.mem_append_right _ (List.mem_map.mpr ⟨line, hline, rfl⟩)
    rw [hlines] at hmem
    obtain ⟨read, hread, hcontent⟩ := List.mem_map.mp hmem
    rw [htext] at hread
    exact fun u hu => isLine_of_mem hread u (hsub read line hcontent u hu)
  have hfits : ∀ i place, (located [] ({ heading := none, body } :: rest))[i]? = some place →
      Fits format title fallback place (format.firstOrdinal + i) := by
    intro i place hplace
    cases i with
    | zero =>
        obtain rfl := Option.some.inj hplace
        exact .inr ⟨rfl, rfl, hfallback _ rfl⟩
    | succ i => exact located_fits hrest _ (List.mem_of_getElem? hplace) _
  obtain ⟨ordinals, -, hincreasing, hnumbered, hdescribed⟩ :=
    @sections_describe ν number format title fallback _ format.firstOrdinal hbodies hfits
  have hdocument : document.sections = (draftsFrom format.firstOrdinal
      (located [] ({ heading := none, body } :: rest))).filterMap
        (format.sectionFromDraft number title) := by
    rw [hsections, sections_eq hkeeps, hgather]
  rw [← hdocument] at hnumbered hdescribed
  refine ⟨?_, ⟨_, rest, rfl, hrest, hlines.symm, hdescribed, ?_⟩, ?_,
    ⟨ordinals, hincreasing, hnumbered⟩⟩
  · rw [htext, said_normalizeWhitespace]
  · have hempty : Part.lines { heading := none, body := [] } = [] := rfl
    rw [hempty, List.nil_append] at hlines
    rw [kept_tells, ← hlines, List.flatMap_assoc]
    exact congrArg (List.flatMap · _) (funext fun part => (tells_lines part).symm)
  · intro hnonempty htitles entry hentry name hname
    obtain ⟨place, hplace, hdescribes⟩ := forall₂_left hdescribed hentry
    have hplace' := (List.mem_filter.mp hplace).1
    rw [hdescribes.path] at hname
    by_cases hopen : openHeadings place.1 = []
    · rw [if_pos hopen, List.mem_singleton] at hname
      rw [hname]
      exact hnonempty
    · rw [if_neg hopen] at hname
      obtain ⟨heading, hheading, rfl⟩ := List.mem_map.mp hname
      rcases (mem_located hplace').2 heading (openHeadings_subset _ _ hheading) with
        hnone | ⟨part, hpart, hsome⟩
      · exact absurd hnone List.not_mem_nil
      · refine htitles heading ?_
        have hmem : Line.heading heading ∈ part.lines := by simp [Part.lines, hsome]
        have hempty : Part.lines { heading := none, body := [] } = [] := rfl
        rw [hempty, List.nil_append] at hlines
        rw [← hlines]
        exact List.mem_flatMap.mpr ⟨part, hpart, hmem⟩

end Documents
