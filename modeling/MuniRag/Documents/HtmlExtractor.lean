import MuniRag.Documents.LineExtractors

/-!
# The HTML extractor

`htmlExtractor.ts`.  Passes of global replacements turn a page into marked text: comments
and elements without text go, headings become lines with a marker, other tags go, and
character references are decoded.  The loop over the lines then reads the markers back.
-/

namespace Documents

open Replacing

/-! ## Character references -/

/-- `NAMED_ENTITIES`. -/
def namedEntities : List (JsString × JsString) := [
  (js "amp", js "&"), (js "apos", js "'"), (js "gt", js ">"), (js "lt", js "<"),
  (js "nbsp", js " "), (js "quot", js "\""), (js "aacute", js "á"), (js "eacute", js "é"),
  (js "iacute", js "í"), (js "oacute", js "ó"), (js "uacute", js "ú"), (js "ntilde", js "ñ"),
  (js "Aacute", js "Á"), (js "Eacute", js "É"), (js "Iacute", js "Í"), (js "Oacute", js "Ó"),
  (js "Uacute", js "Ú"), (js "Ntilde", js "Ñ"), (js "ndash", js "–"), (js "mdash", js "—"),
  (js "hellip", js "…")]

/-- The members that every object inherits, as the names that a reference can spell. -/
def inheritedMembers : List JsString := [js "constructor", js "hasOwnProperty",
  js "isPrototypeOf", js "propertyIsEnumerable", js "toLocaleString", js "toString", js "valueOf"]

/-- `NAMED_ENTITIES[name]` as a text; an inherited member is the text of its function. -/
def namedEntity (name : JsString) : Option JsString :=
  match namedEntities.lookup name with
  | some text => some text
  | none =>
      if name ∈ inheritedMembers then
        let shown := if name = js "constructor" then js "Object" else name
        some (js "function " ++ shown ++ js "() \x7b [native code] \x7d")
      else none

/-- `String.fromCodePoint`, of a number that is one. -/
def codePointText (codePoint : Nat) : JsString :=
  if 0x10ffff < codePoint then []
  else if codePoint < 0x10000 then [codePoint.toUInt16]
  else [(0xd800 + (codePoint - 0x10000) / 0x400).toUInt16,
    (0xdc00 + (codePoint - 0x10000) % 0x400).toUInt16]

/-- The value of digits in a base. -/
def parseDigits (base : Nat) (digits : JsString) : Nat :=
  digits.foldl (fun n u => base * n + (hexDigit u).getD 0) 0

/-- A reference: `&`, what `opening` reads, a run of the class, and a semicolon. -/
def referenceRule (opening : List (UInt16 → Bool)) (run : UInt16 → Bool) (least : Nat)
    (decode : JsString → JsString) : Rule UInt16
  | u :: rest =>
      let opened := rest.take opening.length
      let after := rest.drop opening.length
      let name := after.takeWhile run
      if u = 0x26 ∧ opened.length = opening.length ∧
          (opened.zip opening).all (fun (v, p) => p v) = true ∧ least ≤ name.length ∧
          (after.drop name.length).head? = some 0x3b then
        some (decode name, opening.length + name.length + 1)
      else none
  | [] => none

/-- `/&#x([0-9a-f]+);/gi`. -/
def hexRule : Rule UInt16 :=
  referenceRule [fun u => u == 0x23, fun u => u == 0x78 || u == 0x58] (fun u => (hexDigit u).isSome) 1
    fun digits => codePointText (parseDigits 16 digits)

/-- `/&#([0-9]+);/g`. -/
def decimalRule : Rule UInt16 :=
  referenceRule [fun u => u == 0x23] isDecimalDigit 1
    fun digits => codePointText (parseDigits 10 digits)

def isAlphanumericUnit (u : UInt16) : Bool := isLowerLetter u || isUpperLetter u || isDecimalDigit u

/-- `/&([A-Za-z][A-Za-z0-9]+);/g`; a name that is not known stays. -/
def namedRule : Rule UInt16
  | u :: v :: rest =>
      let name := v :: rest.takeWhile isAlphanumericUnit
      if u = 0x26 ∧ (isLowerLetter v || isUpperLetter v) = true ∧ 2 ≤ name.length ∧
          (rest.drop (name.length - 1)).head? = some 0x3b then
        some ((namedEntity name).getD (0x26 :: name ++ [0x3b]), name.length + 1)
      else none
  | _ => none

def decodeEntities (value : JsString) : JsString :=
  replaceAll namedRule (replaceAll decimalRule (replaceAll hexRule value))

/-! ## Tags -/

/-- `\b` behind a word, before this text. -/
def isWordEnd (text : JsString) : Bool :=
  !text.head?.any fun u => isAlphanumericUnit u || u == 0x5f

/-- `word[^>]*>` at the head of a text, and `\b` behind the word: its length. -/
def openingTag (word : JsString) (text : JsString) : Option Nat := do
  let rest ← afterWord word text
  let attributes := rest.takeWhile fun u => u != 0x3e
  if isWordEnd rest = true ∧ attributes.length < rest.length then
    some (word.length + attributes.length + 1)
  else none

/-- `word\s*>` at the head of a text: its length. -/
def closingTag (word : JsString) (text : JsString) : Option Nat := do
  let rest ← afterWord word text
  let spaces := rest.takeWhile isWhitespace
  if (rest.drop spaces.length).head? = some 0x3e then some (word.length + spaces.length + 1) else none

/-- The first place at which a text is matched: how far it is, and how long the match. -/
def search (matchHere : JsString → Option Nat) : JsString → Option (Nat × Nat)
  | [] => none
  | u :: rest =>
      match matchHere (u :: rest) with
      | some n => some (0, n)
      | none => (search matchHere rest).map fun (before, n) => (before + 1, n)

/-- A replacement of a match of a known length. -/
def replaceBy (replacement : JsString) (length : Option Nat) : Option (JsString × Nat) :=
  length.map fun n => (replacement, n - 1)

/-- `/<!--[\s\S]*?-->/g` with a space. -/
def commentRule : Rule UInt16 := fun text =>
  if text.take 4 = js "<!--" then
    (search (fun rest => if rest.take 3 = js "-->" then some 3 else none) (text.drop 4)).map
      fun (before, n) => ([0x20], before + n + 3)
  else none

/-- `/<!DOCTYPE[^>]*>/gi` with a space. -/
def doctypeRule : Rule UInt16 := fun text =>
  replaceBy [0x20] (do
    let rest ← afterWord (js "<!doctype") text
    let attributes := rest.takeWhile fun u => u != 0x3e
    if attributes.length < rest.length then some (9 + attributes.length + 1) else none)

/-- The elements whose content is no text. -/
def silentElements : List JsString := [js "script", js "style", js "noscript", js "template",
  js "svg", js "canvas", js "iframe", js "object", js "embed"]

/-- An element from its opening tag to the first closing tag behind it: what stands
between the two, and the length of the whole. -/
def elementAt (name : JsString) (text : JsString) : Option (JsString × Nat) := do
  let opening ← openingTag (0x3c :: name) text
  let (inner, closing) ← search (closingTag (js "</" ++ name)) (text.drop opening)
  some ((text.drop opening).take inner, opening + inner + closing)

/-- `/<(script|…)\b[^>]*>[\s\S]*?<\/\1\s*>/gi` with a space. -/
def silentRule : Rule UInt16 := fun text =>
  replaceBy [0x20] ((silentElements.findSome? fun name => elementAt name text).map Prod.snd)

/-- `/<[^>]*>/g` with a space. -/
def tagRule : Rule UInt16
  | u :: rest =>
      let inner := rest.takeWhile fun v => v != 0x3e
      if u = 0x3c ∧ inner.length < rest.length then some ([0x20], inner.length + 1) else none
  | [] => none

def stripTags (value : JsString) : JsString :=
  trim (Api.collapseSpaces (decodeEntities (replaceAll tagRule value)))

def headingMarker : JsString := js "@@HTML_HEADING:"

/-- What stands for a heading of a level. -/
def markedHeading (level : UInt16) (heading : JsString) : JsString :=
  0x0a :: headingMarker ++ level :: 0x3a :: heading ++ [0x0a]

/-- `/<h([1-6])\b[^>]*>([\s\S]*?)<\/h\1\s*>/gi` with the marked heading. -/
def headingRule : Rule UInt16 := fun text =>
  (js "123456").findSome? fun level =>
    (elementAt [0x68, level] text).map fun (inner, n) =>
      let heading := stripTags inner
      (if heading ≠ [] then markedHeading level heading else [0x0a], n - 1)

/-- `/<br\s*\/?>/gi` with a newline. -/
def breakRule : Rule UInt16 := fun text =>
  replaceBy [0x0a] (do
    let rest ← afterWord (js "<br") text
    let spaces := rest.takeWhile isWhitespace
    let after := rest.drop spaces.length
    if after.head? = some 0x3e then some (3 + spaces.length + 1)
    else if after.take 2 = js "/>" then some (3 + spaces.length + 2)
    else none)

/-- `/<li\b[^>]*>/gi` with a bullet on a new line. -/
def itemRule : Rule UInt16 := fun text => replaceBy (0x0a :: js "- ") (openingTag (js "<li") text)

/-- The elements that end a line. -/
def blockElements : List JsString := [js "p", js "div", js "li", js "ul", js "ol", js "tr",
  js "table", js "section", js "article", js "header", js "footer", js "main", js "aside", js "dl",
  js "dt", js "dd"]

/-- `/<\/(?:p|…)\s*>/gi` with a newline. -/
def blockEndRule : Rule UInt16 := fun text =>
  replaceBy [0x0a] (blockElements.findSome? fun name => closingTag (js "</" ++ name) text)

def htmlToMarkedText (html : JsString) : JsString :=
  let value := replaceAll silentRule (replaceAll doctypeRule (replaceAll commentRule html))
  let value := replaceAll headingRule value
  let value := replaceAll tagRule (replaceAll blockEndRule (replaceAll itemRule
    (replaceAll breakRule value)))
  normalizeWhitespace (decodeEntities value)

/-! ## Extraction -/

/-- `line.match(/^@@HTML_HEADING:([1-6]):(.+)$/)`. -/
def markerMatch (line : JsString) : Option (Nat × JsString) :=
  if line.take headingMarker.length = headingMarker then
    match line.drop headingMarker.length with
    | level :: colon :: heading =>
        if 0x31 ≤ level ∧ level ≤ 0x36 ∧ colon = 0x3a ∧ heading ≠ [] ∧
            heading.any isLineTerminator = false then
          some ((level - 0x30).toNat, heading)
        else none
    | _ => none
  else none

def htmlLine (line : JsString) : Line :=
  match markerMatch line with
  | some (level, heading) => .heading { level, title := trim heading }
  | none => .text (trim line)

def htmlFormat : LineFormat where
  readLine := htmlLine
  push := popAndPush
  firstOrdinal := 0
  fallback title _ := title
  articleNumber _ heading := detectArticleNumber heading
  plainType := .section
  extractor := js "html_heading_v1"

section Extract

variable {ν : Type} (decoding : Decoding) (number : Nat → ν) (input : ExtractorInput ν)

/-- The charset that the metadata names. -/
def declaredCharset (metadata : Option (Metadata ν)) : JsString :=
  match metadata.bind fun entries => JsMap.get entries (js "charset") with
  | some (.string charset) => charset
  | _ => js "utf-8"

/-- `/[_\s]+/g` with a hyphen. -/
def charsetRule : Rule UInt16 := fun text =>
  let run := text.takeWhile fun u => u == 0x5f || isWhitespace u
  if run ≠ [] then some ([0x2d], run.length - 1) else none

def htmlContentToText : JsString :=
  match input.content with
  | .text text => text
  | .buffer bytes =>
      let normalized := replaceAll charsetRule ((trim (declaredCharset input.metadata)).map lowerUnit)
      if normalized ∈ [js "iso-8859-1", js "iso8859-1", js "latin1", js "latin-1",
          js "windows-1252", js "cp1252"] then
        decoding.windows1252 bytes
      else decoding.utf8 bytes

def htmlExtractor : NormalizedDocument ν :=
  let sections := htmlFormat.sections number input.title
    (splitLines (htmlToMarkedText (htmlContentToText decoding input)))
  { title := input.title
    sourceFormat := .html
    text := normalizeWhitespace ([0x0a, 0x0a].intercalate (sections.map fun entry =>
      entry.heading.getD [] ++ 0x0a :: entry.text))
    sections
    metadata := htmlFormat.documentMetadata input }

end Extract

example : decodeEntities (js "&lt;a&#62; &amp;lt; &nada;") = js "<a> &lt; &nada;" := by
  decide +kernel

end Documents
