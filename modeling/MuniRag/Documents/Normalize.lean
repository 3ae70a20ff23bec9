import MuniRag.Lib.Json
import Mathlib.Data.List.DropRight
import Mathlib.Data.List.TakeWhile

/-!
# Normalised texts and documents

The helpers that all extractors share, and the documents they return.  `solid` is what a text
says: its units that are no white space.  Normalising keeps it but for null characters
(`solid_normalizeWhitespace`).
-/

namespace Documents

/-! ## Texts -/

/-- `.replace(/\r\n/g, "\n")`. -/
def replaceCrLf : JsString → JsString
  | [] => []
  | [u] => [u]
  | u :: v :: rest =>
      if u = 0x0d ∧ v = 0x0a then 0x0a :: replaceCrLf rest else u :: replaceCrLf (v :: rest)

def normalizeLineEndings (value : JsString) : JsString :=
  ((replaceCrLf value).map fun u => if u = 0x0d then 0x0a else u).filter fun u => u ≠ 0

/-- `.split("\n")`. -/
def splitLines (value : JsString) : List JsString := value.splitOn 0x0a

/-- `.join("\n")`. -/
def joinLines (lines : List JsString) : JsString := [0x0a].intercalate lines

/-- `.replace(/[ \t]+$/g, "")`. -/
def trimEndBlanks (line : JsString) : JsString := line.rdropWhile fun u => u == 0x20 || u == 0x09

/-- The loop over the lines: of blank lines in a row the first one stays. -/
def compactLines : Bool → List JsString → List JsString
  | _, [] => []
  | previousBlank, line :: rest =>
      let isBlank := (trim line).isEmpty
      if isBlank && previousBlank then compactLines previousBlank rest
      else line :: compactLines isBlank rest

def normalizeWhitespace (value : JsString) : JsString :=
  trim (joinLines (compactLines false
    ((splitLines (normalizeLineEndings value)).map trimEndBlanks)))

/-! ## Documents -/

inductive SourceFormat
  | markdown
  | txt
  | html
  | docx
  | pdf
  deriving DecidableEq, Repr

def SourceFormat.text : SourceFormat → JsString
  | .markdown => js "markdown"
  | .txt => js "txt"
  | .html => js "html"
  | .docx => js "docx"
  | .pdf => js "pdf"

inductive SectionType
  | title
  | heading
  | article
  | «section»
  | paragraph
  | page
  deriving DecidableEq, Repr

def SectionType.text : SectionType → JsString
  | .title => js "title"
  | .heading => js "heading"
  | .article => js "article"
  | .section => js "section"
  | .paragraph => js "paragraph"
  | .page => js "page"

/-- A record of free metadata, as it is printed in JSON. -/
abbrev Metadata (ν : Type) := List (JsString × Json.Value ν)

/-- `NormalizedSection`, over the numbers `ν`. -/
structure NormalizedSection (ν : Type) where
  heading : Option JsString
  sectionType : SectionType
  sectionPath : List JsString
  text : JsString
  pageStart : Option ν
  pageEnd : Option ν
  articleNumber : Option JsString
  citationLabel : Option JsString
  metadata : Metadata ν

structure NormalizedDocument (ν : Type) where
  title : JsString
  sourceFormat : SourceFormat
  text : JsString
  sections : List (NormalizedSection ν)
  metadata : Metadata ν

/-! ## What a text says -/

/-- The units that are no white space. -/
def solid (text : JsString) : JsString := text.filter fun u => !isWhitespace u

variable {text rest : JsString}

@[simp] theorem solid_nil : solid [] = [] := rfl

@[simp] theorem solid_append : solid (text ++ rest) = solid text ++ solid rest :=
  List.filter_append ..

theorem solid_eq_nil_iff : solid text = [] ↔ ∀ u ∈ text, isWhitespace u = true := by
  simp [solid]

theorem solid_dropWhile (text : JsString) : solid (text.dropWhile isWhitespace) = solid text := by
  induction text with
  | nil => rfl
  | cons u text ih =>
      by_cases hu : isWhitespace u = true
      · rw [List.dropWhile_cons_of_pos hu, ih]
        simp [solid, hu]
      · rw [List.dropWhile_cons_of_neg hu]

theorem solid_reverse (text : JsString) : solid text.reverse = (solid text).reverse :=
  List.filter_reverse

theorem solid_trim (text : JsString) : solid (trim text) = solid text := by
  rw [trim, solid_reverse, solid_dropWhile, solid_reverse, List.reverse_reverse, solid_dropWhile]

/-- A text is blank if it says nothing. -/
theorem trim_eq_nil_iff : trim text = [] ↔ solid text = [] := by
  constructor
  · intro h
    rw [← solid_trim, h, solid_nil]
  · intro h
    have hall := solid_eq_nil_iff.mp h
    have hnil : text.dropWhile isWhitespace = [] := List.dropWhile_eq_nil_iff.mpr hall
    rw [trim, hnil]
    rfl

theorem length_trim_le (text : JsString) : (trim text).length ≤ text.length := by
  have hinner := (List.dropWhile_sublist (l := text) isWhitespace).length_le
  have houter := (List.dropWhile_sublist
    (l := (text.dropWhile isWhitespace).reverse) isWhitespace).length_le
  rw [List.length_reverse] at houter
  rw [trim, List.length_reverse]
  omega

/-- A trimmed text starts and ends with no white space. -/
theorem trim_trim (text : JsString) : trim (trim text) = trim text := by
  have hhead : (trim text).dropWhile isWhitespace = trim text := by
    rw [List.dropWhile_eq_self_iff]
    intro hpos hblank
    have hsublist : trim text <+: text.dropWhile isWhitespace := by
      rw [trim, ← List.reverse_suffix, List.reverse_reverse]
      exact List.dropWhile_suffix _
    obtain ⟨after, hafter⟩ := hsublist
    have hne : text.dropWhile isWhitespace ≠ [] := by
      rw [← hafter]
      exact List.append_ne_nil_of_left_ne_nil (List.ne_nil_of_length_pos hpos) _
    have hfirst := List.head_dropWhile_not isWhitespace hne
    have hsame : (text.dropWhile isWhitespace).head hne = (trim text)[0] := by
      simp only [← hafter, List.head_eq_getElem]
      exact List.getElem_append_left hpos
    rw [hsame, hblank] at hfirst
    cases hfirst
  rw [trim, hhead]
  conv_lhs => rw [trim, List.reverse_reverse, List.dropWhile_idempotent]
  rfl

/-! ## What normalising keeps -/

theorem solid_joinLines (lines : List JsString) : solid (joinLines lines) = lines.flatMap solid := by
  induction lines with
  | nil => rfl
  | cons line lines ih =>
      cases lines with
      | nil => simp [joinLines]
      | cons next lines =>
          have hnewline : solid [0x0a] = [] := by decide
          rw [joinLines, List.intercalate_cons_cons, solid_append, solid_append, hnewline,
            List.append_nil, ← joinLines, ih]
          rfl

theorem flatMap_solid_splitLines (text : JsString) :
    (splitLines text).flatMap solid = solid text := by
  rw [← solid_joinLines, joinLines, splitLines, List.intercalate_splitOn]

theorem solid_trimEndBlanks (line : JsString) : solid (trimEndBlanks line) = solid line := by
  have hsplit : trimEndBlanks line ++
      (line.reverse.takeWhile fun u => u == 0x20 || u == 0x09).reverse = line := by
    rw [trimEndBlanks, List.rdropWhile, ← List.reverse_append, List.takeWhile_append_dropWhile,
      List.reverse_reverse]
  have hblank : solid (line.reverse.takeWhile fun u => u == 0x20 || u == 0x09).reverse = [] := by
    refine solid_eq_nil_iff.mpr fun u hu => ?_
    have hunit := List.mem_takeWhile_imp (List.mem_reverse.mp hu)
    rcases Bool.or_eq_true _ _ ▸ hunit with h | h
    · rw [eq_of_beq h]
      decide
    · rw [eq_of_beq h]
      decide
  conv_rhs => rw [← hsplit, solid_append, hblank, List.append_nil]

theorem flatMap_solid_compactLines (previousBlank : Bool) (lines : List JsString) :
    (compactLines previousBlank lines).flatMap solid = lines.flatMap solid := by
  induction lines generalizing previousBlank with
  | nil => rfl
  | cons line lines ih =>
      rw [compactLines]
      by_cases hskip : ((trim line).isEmpty && previousBlank) = true
      · have hblank : solid line = [] := by
          rw [Bool.and_eq_true, List.isEmpty_iff, trim_eq_nil_iff] at hskip
          exact hskip.1
        rw [if_pos hskip, ih, List.flatMap_cons, hblank, List.nil_append]
      · rw [if_neg hskip, List.flatMap_cons, List.flatMap_cons, ih]

theorem solid_replaceCrLf (text : JsString) : solid (replaceCrLf text) = solid text := by
  fun_induction replaceCrLf text with
  | case1 => rfl
  | case2 => rfl
  | case3 u v rest h ih =>
      obtain ⟨rfl, rfl⟩ := h
      have hreturn : isWhitespace 0x0d = true := by decide
      have hnewline : isWhitespace 0x0a = true := by decide
      simpa [solid, hreturn, hnewline] using ih
  | case4 u v rest h ih =>
      by_cases hu : isWhitespace u = true
      · simpa [solid, hu] using ih
      · simpa [solid, hu] using ih

/-- **What normalising keeps.**  A normalised text says what the text says, without null
characters. -/
theorem solid_normalizeWhitespace (text : JsString) :
    solid (normalizeWhitespace text) = (solid text).filter fun u => u ≠ 0 := by
  have hreturns : ∀ text : JsString, solid (text.map fun u => if u = 0x0d then 0x0a else u) =
      solid text := by
    intro text
    induction text with
    | nil => rfl
    | cons u text ih =>
        have hreturn : isWhitespace 0x0d = true := by decide
        have hnewline : isWhitespace 0x0a = true := by decide
        by_cases hu : u = 0x0d
        · subst hu
          simpa [solid, hreturn, hnewline] using ih
        · by_cases hblank : isWhitespace u = true
          · simpa [solid, hu, hblank] using ih
          · simpa [solid, hu, hblank] using ih
  have hlines : ∀ lines : List JsString, (lines.map trimEndBlanks).flatMap solid =
      lines.flatMap solid := by
    intro lines
    rw [List.flatMap_map]
    exact congrArg lines.flatMap (funext solid_trimEndBlanks)
  rw [normalizeWhitespace, solid_trim, solid_joinLines, flatMap_solid_compactLines, hlines,
    flatMap_solid_splitLines, normalizeLineEndings, solid, List.filter_comm, ← solid, hreturns,
    solid_replaceCrLf]

theorem trim_normalizeWhitespace (text : JsString) :
    trim (normalizeWhitespace text) = normalizeWhitespace text := trim_trim _

end Documents
