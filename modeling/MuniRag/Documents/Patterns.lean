import MuniRag.Api.DerivedIds
import MuniRag.Documents.Normalize
import MuniRag.Lib.Replacing

/-!
# Headings, articles and inline markup

The patterns of `normalize.ts` that the extractors share, and the citation label of
a section (`citation.ts`).  A pattern that is matched from its start has one way to
match, since no two parts of it can read the same unit.
-/

namespace Documents

open Replacing

/-- A unit as the flag `i` compares it, on the letters that the patterns have. -/
def foldUnit (u : UInt16) : UInt16 := if u = 0xcd then 0xed else lowerUnit u

/-- What follows `word` at the head of a text, in any letter case. -/
def afterWord (word : JsString) (text : JsString) : Option JsString :=
  if (text.take word.length).map foldUnit = word then some (text.drop word.length) else none

/-- `/^\s*(?:art(?:i|í)culo|art\.)\s+([0-9]+[A-Za-z-]*)/i`. -/
def detectArticleNumber (value : JsString) : Option JsString := do
  let rest := value.dropWhile isWhitespace
  let rest ← (afterWord (js "articulo") rest).orElse fun _ =>
    (afterWord (js "artículo") rest).orElse fun _ => afterWord (js "art.") rest
  let number := rest.dropWhile isWhitespace
  let digits := number.takeWhile isDecimalDigit
  if number.length < rest.length ∧ digits ≠ [] then
    some (digits ++ (number.dropWhile isDecimalDigit).takeWhile fun u =>
      isLowerLetter u || isUpperLetter u || u == 0x2d)
  else none

/-- What follows the groups of a dot and digits. -/
def afterGroups : Nat → JsString → JsString
  | 0, text => text
  | fuel + 1, text =>
      match text with
      | [] => []
      | u :: rest =>
          if u = 0x2e ∧ rest.takeWhile isDecimalDigit ≠ [] then
            afterGroups fuel (rest.dropWhile isDecimalDigit)
          else u :: rest

/-- `/^[0-9]+(?:\.[0-9]+)*[.)]?\s+\S+/`. -/
def isNumbered (text : JsString) : Bool :=
  let groups := afterGroups text.length (text.dropWhile isDecimalDigit)
  let rest := if groups.head? = some 0x2e ∨ groups.head? = some 0x29 then groups.tail else groups
  let label := rest.dropWhile isWhitespace
  !(text.takeWhile isDecimalDigit).isEmpty && decide (label.length < rest.length) &&
    !label.isEmpty

/-- `[A-ZÁÉÍÓÚÜÑ0-9]`. -/
def isCapital (u : UInt16) : Bool :=
  isUpperLetter u || isDecimalDigit u || (js "ÁÉÍÓÚÜÑ").contains u

/-- A capital, then one or more capitals, white spaces and marks of `, . ; : ( ) / -`. -/
def isCapitalised : JsString → Bool
  | [] => false
  | u :: rest => isCapital u && !rest.isEmpty && rest.all fun v =>
      isCapital v || isWhitespace v || (js ",.;:()/-").contains v

def isLikelyHeading (line : JsString) : Bool :=
  let trimmed := trim line
  if trimmed = [] then false
  else (detectArticleNumber trimmed).isSome || isNumbered trimmed ||
    (decide (trimmed.length ≤ 90) && isCapitalised trimmed)

/-! ## Inline markup -/

/-- `[^\]]*\]\([^)]+\)`, with its label and its length; a label that must not be empty
is `[^\]]+`. -/
def labelAndTarget (emptyLabel : Bool) (text : JsString) : Option (JsString × Nat) :=
  let label := text.takeWhile fun u => u != 0x5d
  let rest := text.drop label.length
  let target := (rest.drop 2).takeWhile fun u => u != 0x29
  if (label ≠ [] ∨ emptyLabel = true) ∧ rest.take 2 = [0x5d, 0x28] ∧ target ≠ [] ∧
      (rest.drop (2 + target.length)).head? = some 0x29 then
    some (label, label.length + target.length + 3)
  else none

/-- `/!\[([^\]]*)\]\([^)]+\)/g` with `"$1"`. -/
def imageRule : Rule UInt16
  | u :: v :: rest =>
      if u = 0x21 ∧ v = 0x5b then
        (labelAndTarget true rest).map fun (label, n) => (label, n + 1)
      else none
  | _ => none

/-- `/\[([^\]]+)\]\([^)]+\)/g` with `"$1"`. -/
def linkRule : Rule UInt16
  | u :: rest => if u = 0x5b then labelAndTarget false rest else none
  | [] => none

def stripMarkdownInline (value : JsString) : JsString :=
  trim ((replaceAll linkRule (replaceAll imageRule value)).filter fun u =>
    !(u == 0x60 || u == 0x2a || u == 0x5f || u == 0x7e))

/-! ## Citation labels -/

/-- `CitationInput`; a null and an absent member are read alike. -/
structure CitationInput where
  title : JsString
  sectionPath : List JsString
  heading : Option JsString
  pageStart : Option Int
  articleNumber : Option JsString

/-- A string that is not empty. -/
def truthy (text : Option JsString) : Option JsString := text.filter fun value => value ≠ []

def buildCitationLabel (input : CitationInput) : JsString :=
  let place :=
    match truthy input.articleNumber, input.pageStart with
    | some articleNumber, _ => [js "articulo " ++ articleNumber]
    | none, some pageStart => [js "pagina " ++ Api.numberText pageStart]
    | none, none =>
        if input.sectionPath ≠ [] then [(js " > ").intercalate input.sectionPath]
        else (truthy input.heading).toList
  (js ", ").intercalate (input.title :: place)

example : stripMarkdownInline (js "**Ver** [la guía](https://x) y ![foto](a.png)") =
    js "Ver la guía y foto" := by decide +kernel

example : detectArticleNumber (js " ARTÍCULO 12-b. Objeto") = some (js "12-b") := by decide +kernel

end Documents
