import MuniRag.Api.DerivedIds
import MuniRag.Lib.FirstMatch
import MuniRag.Lib.Segments
import Mathlib.Data.List.DropRight

/-!
# The authority of a source

`resolveSourceAuthority` for the municipal domain pack: a source whose title and
citation label name another municipality is an external reference, any other
gets the first authority class that one of its keywords or its type selects.
Case mapping and Unicode decomposition belong to the platform.
-/

namespace Procedure

open Api

/-! ## Normalised texts -/

/-- Case mapping and canonical decomposition.  Neither looks across a blank: it
is no cased letter, ignored by none, and starts a combining sequence. -/
structure TextPlatform where
  toLowerCase : JsString → JsString
  nfd : JsString → JsString
  toLowerCase_nil : toLowerCase [] = []
  nfd_nil : nfd [] = []
  toLowerCase_blank (left right : JsString) :
    toLowerCase (left ++ 0x20 :: right) = toLowerCase left ++ 0x20 :: toLowerCase right
  nfd_blank (left right : JsString) : nfd (left ++ 0x20 :: right) = nfd left ++ 0x20 :: nfd right

/-- The text without its marks, in lower case. -/
def plain (platform : TextPlatform) (value : JsString) : JsString :=
  (platform.nfd (platform.toLowerCase value)).filter fun u => !isCombiningMark u

def normalize (platform : TextPlatform) (value : JsString) : JsString :=
  trim (collapseSpaces (plain platform value))

/-! ## Citation labels -/

/-- `CitationInput`. -/
structure CitationInput where
  title : JsString
  sectionPath : List JsString
  heading : Option JsString
  pageStart : Option Int
  articleNumber : Option JsString
  deriving DecidableEq, Repr

/-- A text that is neither missing nor empty. -/
def truthy (value : Option JsString) : Option JsString := value.filter (· ≠ [])

/-- What a label adds to the title. -/
def citationPlace (input : CitationInput) : List JsString :=
  match truthy input.articleNumber with
  | some article => [js "articulo " ++ article]
  | none =>
      match input.pageStart with
      | some page => [js "pagina " ++ numberText page]
      | none =>
          if 0 < input.sectionPath.length then [(js " > ").intercalate input.sectionPath]
          else (truthy input.heading).toList

def buildCitationLabel (input : CitationInput) : JsString :=
  (js ", ").intercalate (input.title :: citationPlace input)

/-! ## Authority classes -/

/-- `DomainAuthorityLevel`. -/
inductive AuthorityLevel
  | primary
  | national
  | context
  | comparative
  | unknown
  deriving DecidableEq, Repr

/-- `DomainSourceAuthority`; a missing `externalReference` is `false`. -/
structure SourceAuthority where
  id : JsString
  label : JsString
  description : JsString
  authorityLevel : AuthorityLevel
  externalReference : Bool
  titleKeywords : List JsString
  sourceTypes : List JsString
  deriving DecidableEq, Repr

/-- The fields of an `EvidenceItem` that its authority is found from. -/
structure EvidenceItem where
  sourceType : JsString
  documentTitle : JsString
  citationLabel : JsString
  deriving DecidableEq, Repr

def includesAny (value : JsString) (terms : List JsString) : Bool :=
  terms.any fun term => decide (term <:+: value)

/-- `municipalidad de `, the literal of the pattern. -/
def municipalityOf : JsString := js "municipalidad de "

/-- The class `[a-z ]` of the pattern. -/
def isNameUnit (u : UInt16) : Bool := isLowerLetter u || u == 0x20

/-- The municipality of the pack. -/
def ownNames : List JsString := [js "la antigua guatemala", js "antigua guatemala"]

def identifiesExternalMunicipality (platform : TextPlatform) (value : JsString) : Bool :=
  match FirstMatch.capture municipalityOf isNameUnit (normalize platform value) with
  | none => false
  | some run => decide (0 < (trim run).length) && decide (trim run ∉ ownNames)

def SourceAuthority.isExternal (authority : SourceAuthority) : Bool :=
  authority.externalReference || authority.authorityLevel == .comparative

def externalReferenceAuthority (classes : List SourceAuthority) : Option SourceAuthority :=
  classes.find? SourceAuthority.isExternal

/-- Whether a title keyword or a source type of a class selects it. -/
def SourceAuthority.selects (platform : TextPlatform) (title type : JsString)
    (authority : SourceAuthority) : Bool :=
  includesAny title (authority.titleKeywords.map (normalize platform)) ||
    (authority.sourceTypes.map (normalize platform)).contains type

/-- The title and the label of an item, as one text. -/
def EvidenceItem.titleText (evidence : EvidenceItem) : JsString :=
  evidence.documentTitle ++ 0x20 :: evidence.citationLabel

def resolveSourceAuthority (platform : TextPlatform) (evidence : EvidenceItem)
    (classes : List SourceAuthority) : Option SourceAuthority :=
  let type := normalize platform evidence.sourceType
  let title := normalize platform evidence.titleText
  if identifiesExternalMunicipality platform title then externalReferenceAuthority classes
  else classes.find? (SourceAuthority.selects platform title type)

/-! ## The municipal pack -/

/-- The class `external_reference`. -/
def externalReference : SourceAuthority where
  id := js "external_reference"
  label := js "Referencia externa"
  description := js "Documento de otra municipalidad o entidad no local."
  authorityLevel := .comparative
  externalReference := true
  titleKeywords := [js "mixco", js "villa nueva", js "municipalidad de guatemala"]
  sourceTypes := []

/-- A class of the pack that is not external. -/
def localAuthority (id label description : String) (authorityLevel : AuthorityLevel)
    (titleKeywords sourceTypes : List String) : SourceAuthority where
  id := js id
  label := js label
  description := js description
  authorityLevel
  externalReference := false
  titleKeywords := titleKeywords.map js
  sourceTypes := sourceTypes.map js

/-- The other `sourceAuthorityClasses` of `municipal-antigua`. -/
def localAuthorities : List SourceAuthority := [
  localAuthority "national_law" "Ley nacional" "Norma nacional aplicable." .national
    ["ley de contrataciones", "reglamento", "decreto", "katun", "k'atun", "nacional"]
    ["law", "decree", "regulation"],
  localAuthority "municipal_code" "Código Municipal" "Código Municipal de Guatemala." .national
    ["codigo municipal", "código municipal"] [],
  localAuthority "municipal_manual" "Manual municipal" "Manual o procedimiento municipal." .primary
    ["manual de normas", "procedimiento", "procedimientos", "adquisiciones", "contrataciones"]
    ["manual", "procedure"],
  localAuthority "mof" "MOF" "Manual de Organización y Funciones." .primary
    ["manual de organizacion", "manual de organización", "mof", "funciones"] [],
  localAuthority "organigram" "Organigrama" "Estructura organizacional municipal." .primary
    ["organigrama"] [],
  localAuthority "pdm_ot" "PDM-OT" "Plan de Desarrollo Municipal y Ordenamiento Territorial."
    .primary ["pdm-ot", "ordenamiento territorial", "plan de desarrollo municipal"] ["plan"],
  localAuthority "pom_poa" "POM/POA" "Planificación operativa." .primary
    ["poa", "pom", "operativo multianual", "operativo anual"] [],
  localAuthority "budget" "Presupuesto" "Presupuesto o ejecución presupuestaria." .primary
    ["presupuesto", "ejecucion presupuestaria", "egresos", "ingresos"] [],
  localAuthority "council_minutes" "Actas de Concejo" "Actas o puntos de Concejo." .primary
    ["acta", "concejo"] ["council_minutes"],
  localAuthority "community_file" "Ficha comunitaria" "COCODE, COMUDE, comunidad o aldea." .context
    ["cocode", "comude", "aldea", "comunidad", "ficha comunitaria"] [],
  localAuthority "case_file" "Expediente de caso" "Expediente o caso específico." .primary
    ["san mateo", "escuela", "expediente", "contrato de obra"] [],
  localAuthority "war_room" "Fuente operativa"
    "Información de trabajo que no tiene carácter normativo." .context
    ["war room", "banco de propuestas", "kpi", "costos", "metas90"] [],
  localAuthority "unknown" "Sin clasificar"
    "Metadatos insuficientes para clasificar la autoridad de la fuente." .unknown [] []]

/-- `municipalAntiguaDomainPack.sourceAuthorityClasses`. -/
def municipalAntigua : List SourceAuthority := externalReference :: localAuthorities

/-- Only the first class of the pack is external. -/
theorem localAuthorities_local : ∀ authority ∈ localAuthorities, authority.isExternal = false := by
  intro authority hauthority
  fin_cases hauthority <;> rfl

theorem externalReferenceAuthority_municipal :
    externalReferenceAuthority municipalAntigua = some externalReference := rfl

/-! ## Words -/

/-- The words of a text: its longest pieces without white space. -/
def words (text : JsString) : List JsString := (text.splitOnP isWhitespace).filter (· ≠ [])

theorem dropWhile_collapse (text : JsString) :
    (collapseFrom false text).dropWhile isWhitespace = collapseFrom true text ∧
      (collapseFrom true text).dropWhile isWhitespace = collapseFrom true text := by
  induction text with
  | nil => exact ⟨rfl, rfl⟩
  | cons u text ih =>
      by_cases hu : isWhitespace u = true
      · have hblank : isWhitespace 0x20 = true := by decide
        simp [collapseFrom, hu, hblank, ih.2]
      · simp [collapseFrom, hu]

/-- A join of words, none of them empty, is empty only where there is none. -/
theorem join_eq_nil_iff {texts : List JsString} (h : ∀ text ∈ texts, text ≠ []) :
    [0x20].intercalate texts = [] ↔ texts = [] := by
  cases texts with
  | nil => simp
  | cons text rest =>
      have htext : text ≠ [] := h text List.mem_cons_self
      cases rest with
      | nil => simpa using htext
      | cons another rest =>
          rw [Segments.intercalate_cons (by simp)]
          simp

theorem word_ne_nil {text word : JsString} (hword : word ∈ words text) : word ≠ [] := by
  simpa using (List.mem_filter.mp hword).2

theorem join_cons (u : UInt16) (head : JsString) (tail : List JsString) :
    [0x20].intercalate ((u :: head) :: tail) = u :: [0x20].intercalate (head :: tail) := by
  cases tail with
  | nil => simp
  | cons another tail =>
      have hne : another :: tail ≠ [] := List.cons_ne_nil _ _
      rw [Segments.intercalate_cons hne, Segments.intercalate_cons hne]
      rfl

theorem rdropWhile_cons (u : UInt16) (text : JsString) :
    (u :: text).rdropWhile isWhitespace =
      if text.rdropWhile isWhitespace = [] then [u].rdropWhile isWhitespace
      else u :: text.rdropWhile isWhitespace := by
  unfold List.rdropWhile
  rw [List.reverse_cons, List.dropWhile_append]
  by_cases htext : text.reverse.dropWhile isWhitespace = []
  · simp [htext]
  · simp [htext]

/-- What collapsing and trimming leave: after a blank the words, and within a
word the rest of it and then the words. -/
theorem rdropWhile_collapse (text : JsString) :
    (collapseFrom true text).rdropWhile isWhitespace = [0x20].intercalate (words text) ∧
      ∀ head tail, text.splitOnP isWhitespace = head :: tail →
        (collapseFrom false text).rdropWhile isWhitespace =
          [0x20].intercalate (head :: tail.filter (· ≠ [])) := by
  have hblank : isWhitespace 0x20 = true := by decide
  induction text with
  | nil =>
      refine ⟨by simp [collapseFrom, words], ?_⟩
      intro head tail hsplit
      rw [List.splitOnP_nil] at hsplit
      cases hsplit
      simp [collapseFrom]
  | cons u text ih =>
      by_cases hu : isWhitespace u = true
      · have hwords : words (u :: text) = words text := by
          rw [words, List.splitOnP_cons_eq_if_modifyHead, if_pos hu]
          simp [words]
        refine ⟨?_, ?_⟩
        · rw [hwords, ← ih.1]
          simp [collapseFrom, hu]
        · intro head tail hsplit
          rw [List.splitOnP_cons_eq_if_modifyHead, if_pos hu] at hsplit
          cases hsplit
          change _ = [0x20].intercalate ([] :: words text)
          have hcollapse : collapseFrom false (u :: text) = 0x20 :: collapseFrom true text := by
            simp [collapseFrom, hu]
          rw [hcollapse, rdropWhile_cons, ih.1]
          by_cases hnone : words text = []
          · simp [hnone, List.rdropWhile_singleton, hblank]
          · have hsome : [0x20].intercalate (words text) ≠ [] :=
              fun h => hnone ((join_eq_nil_iff fun word => word_ne_nil).mp h)
            rw [if_neg hsome, Segments.intercalate_cons hnone]
            rfl
      · obtain ⟨head, tail, hsplit⟩ := List.exists_cons_of_ne_nil
          (List.splitOnP_ne_nil isWhitespace text)
        have hcons : (u :: text).splitOnP isWhitespace = (u :: head) :: tail := by
          rw [List.splitOnP_cons_eq_if_modifyHead, if_neg hu, hsplit]
          rfl
        have hcollapse : ∀ afterSpace,
            (collapseFrom afterSpace (u :: text)).rdropWhile isWhitespace =
              [0x20].intercalate ((u :: head) :: tail.filter (· ≠ [])) := by
          intro afterSpace
          have hstep : collapseFrom afterSpace (u :: text) = u :: collapseFrom false text := by
            simp [collapseFrom, hu]
          rw [hstep, rdropWhile_cons, ih.2 head tail hsplit, join_cons]
          split
          · rename_i hnone
            rw [hnone, List.rdropWhile_singleton, if_neg hu]
          · rfl
        refine ⟨?_, ?_⟩
        · rw [hcollapse, words, hcons]
          simp
        · intro head' tail' hsplit'
          rw [hcons] at hsplit'
          cases hsplit'
          exact hcollapse false

/-- Collapsing and trimming join the words with single blanks. -/
theorem trim_collapseSpaces (text : JsString) :
    trim (collapseSpaces text) = [0x20].intercalate (words text) := by
  have htrim : trim (collapseSpaces text) =
      ((collapseFrom false text).dropWhile isWhitespace).rdropWhile isWhitespace := rfl
  rw [htrim, (dropWhile_collapse text).1, (rdropWhile_collapse text).1]

theorem words_append_blank (left right : JsString) :
    words (left ++ 0x20 :: right) = words left ++ words right := by
  have hblank : isWhitespace 0x20 = true := by decide
  rw [words, List.splitOnP_append_cons left right hblank, List.filter_append]
  rfl

theorem normalize_eq_join (platform : TextPlatform) (value : JsString) :
    normalize platform value = [0x20].intercalate (words (plain platform value)) :=
  trim_collapseSpaces _

theorem plain_blank (platform : TextPlatform) (left right : JsString) :
    plain platform (left ++ 0x20 :: right) =
      plain platform left ++ 0x20 :: plain platform right := by
  unfold plain
  rw [platform.toLowerCase_blank, platform.nfd_blank, List.filter_append, List.filter_cons_of_pos]
  decide

/-- **Normalising behind a blank.** The text before a blank is normalised alone;
what follows adds a blank and more, or nothing. -/
theorem normalize_blank (platform : TextPlatform) {left : JsString} (right : JsString)
    (hleft : normalize platform left ≠ []) :
    ∃ more, normalize platform (left ++ 0x20 :: right) = normalize platform left ++ more ∧
      (more = [] ∨ ∃ rest, more = 0x20 :: rest) := by
  rw [normalize_eq_join] at hleft
  have hwords : words (plain platform left) ≠ [] := by
    intro h
    rw [h] at hleft
    exact hleft rfl
  simp only [normalize_eq_join]
  rw [plain_blank, words_append_blank]
  by_cases hright : words (plain platform right) = []
  · exact ⟨[], by rw [hright, List.append_nil, List.append_nil], Or.inl rfl⟩
  · exact ⟨_, Segments.intercalate_append hwords hright, Or.inr ⟨_, rfl⟩⟩

/-! ## Single blanks -/

/-- Two units of which at most one is white space. -/
def Spaced (u v : UInt16) : Prop := ¬ (isWhitespace u = true ∧ isWhitespace v = true)

/-- Collapsing leaves no two blanks side by side, and none behind a blank. -/
theorem collapse_spaced (afterSpace : Bool) (text : JsString) :
    (collapseFrom afterSpace text).IsChain Spaced ∧
      (afterSpace = true → ∀ u ∈ (collapseFrom afterSpace text).head?, ¬ isWhitespace u = true) := by
  induction text generalizing afterSpace with
  | nil => simp [collapseFrom]
  | cons u text ih =>
      by_cases hu : isWhitespace u = true
      · cases afterSpace with
        | true =>
            have hcollapse : collapseFrom true (u :: text) = collapseFrom true text := by
              simp [collapseFrom, hu]
            rw [hcollapse]
            exact ih true
        | false =>
            have hcollapse : collapseFrom false (u :: text) = 0x20 :: collapseFrom true text := by
              simp [collapseFrom, hu]
            rw [hcollapse]
            refine ⟨List.isChain_cons.mpr ⟨?_, (ih true).1⟩, by simp⟩
            intro v hv hboth
            exact (ih true).2 rfl v hv hboth.2
      · have hcollapse : collapseFrom afterSpace (u :: text) = u :: collapseFrom false text := by
          simp [collapseFrom, hu]
        rw [hcollapse]
        refine ⟨List.isChain_cons.mpr ⟨?_, (ih false).1⟩, ?_⟩
        · intro v _ hboth
          exact hu hboth.1
        · intro _ v hv
          cases hv
          exact hu

theorem isChain_inside {R : UInt16 → UInt16 → Prop} {part text : JsString}
    (hpart : part <:+: text) (h : text.IsChain R) : part.IsChain R := by
  obtain ⟨before, after, rfl⟩ := hpart
  exact h.left_of_append.right_of_append

theorem trim_inside (text : JsString) : trim text <:+: text := by
  have hleft : text.dropWhile isWhitespace <:+ text := List.dropWhile_suffix _
  have hright : (text.dropWhile isWhitespace).rdropWhile isWhitespace <+:
      text.dropWhile isWhitespace := List.rdropWhile_prefix _ _
  exact hright.isInfix.trans hleft.isInfix

theorem normalize_spaced (platform : TextPlatform) (value : JsString) :
    (normalize platform value).IsChain Spaced :=
  isChain_inside (trim_inside _) (collapse_spaced false (plain platform value)).1

/-- In a normalised text no white space follows the literal of the pattern. -/
theorem behind_literal {platform : TextPlatform} {value before post : JsString} {u : UInt16}
    (hvalue : normalize platform value = before ++ municipalityOf ++ u :: post) :
    ¬ isWhitespace u = true := by
  intro hu
  have hends : municipalityOf = js "municipalidad de" ++ [0x20] := by decide
  have hpair : [0x20, u] <:+: normalize platform value := by
    refine ⟨before ++ js "municipalidad de", post, ?_⟩
    rw [hvalue, hends]
    simp
  have hspaced := isChain_inside hpair (normalize_spaced platform value)
  rw [List.isChain_pair] at hspaced
  exact hspaced ⟨by decide, hu⟩

theorem trim_append_blanks {text blanks : JsString}
    (hblanks : ∀ u ∈ blanks, isWhitespace u = true) : trim (text ++ blanks) = trim text := by
  have hnone : blanks.reverse.dropWhile isWhitespace = [] := by
    rw [List.dropWhile_eq_nil_iff]
    intro u hu
    exact hblanks u (List.mem_reverse.mp hu)
  have hleft : blanks.dropWhile isWhitespace = [] := List.dropWhile_eq_nil_iff.mpr hblanks
  unfold trim
  rw [List.dropWhile_append]
  by_cases htext : text.dropWhile isWhitespace = []
  · simp [htext, hleft]
  · rw [if_neg (by simpa using htext), List.reverse_append, List.dropWhile_append,
      if_pos (by simp [hnone])]

/-! ## The municipality that a text names -/

/-- The text that the pattern reads: the code normalises a normalised text again. -/
def nameText (platform : TextPlatform) (value : JsString) : JsString :=
  normalize platform (normalize platform value)

/-- The first municipality that the text names is the own one, and nothing but
blanks stands between its name and the first unit that is no letter. -/
def FirstNameEnds (platform : TextPlatform) (value : JsString) : Prop :=
  ∃ name ∈ ownNames, ∃ rest,
    FirstMatch.after municipalityOf isNameUnit (nameText platform value) = some (name ++ rest) ∧
      ∀ u ∈ rest.takeWhile isNameUnit, u = 0x20

theorem isNameUnit_blank {u : UInt16} (hunit : isNameUnit u = true) :
    isWhitespace u = true ↔ u = 0x20 := by
  constructor
  · intro hblank
    rcases Bool.or_eq_true _ _ ▸ hunit with hletter | hspace
    · simp only [isLowerLetter, Bool.and_eq_true, decide_eq_true_eq] at hletter
      simp only [isWhitespace, Bool.or_eq_true, Bool.and_eq_true, decide_eq_true_eq,
        beq_iff_eq] at hblank
      simp only [UInt16.le_iff_toNat_le, ← UInt16.toNat_inj] at hletter hblank
      simp at hletter hblank
      omega
    · exact eq_of_beq hspace
  · rintro rfl
    decide

/-- The run behind a name of letters and blanks that ends with a letter. -/
theorem takeWhile_own {name : JsString} (hname : name ∈ ownNames) (rest : JsString) :
    (name ++ rest).takeWhile isNameUnit = name ++ rest.takeWhile isNameUnit := by
  have hall : (ownNames.all fun own => own.all isNameUnit) = true := by decide
  exact List.takeWhile_append_of_pos (List.all_eq_true.mp (List.all_eq_true.mp hall name hname))

/-- A captured run is an own name up to blanks exactly when nothing else stands
in it behind that name. -/
theorem trim_run_mem_ownNames {u : UInt16} {post : JsString} (hsolid : ¬ isWhitespace u = true)
    (hu : isNameUnit u = true) :
    trim ((u :: post).takeWhile isNameUnit) ∈ ownNames ↔
      ∃ name ∈ ownNames, ∃ rest, u :: post = name ++ rest ∧
        ∀ v ∈ rest.takeWhile isNameUnit, v = 0x20 := by
  constructor
  · intro hown
    have hhead : (u :: post).takeWhile isNameUnit = u :: post.takeWhile isNameUnit := by
      rw [List.takeWhile_cons, if_pos hu]
    have htrim : trim ((u :: post).takeWhile isNameUnit) =
        ((u :: post).takeWhile isNameUnit).rdropWhile isWhitespace := by
      rw [hhead, trim, List.dropWhile_cons_of_neg hsolid]
      rfl
    have hrun : trim ((u :: post).takeWhile isNameUnit) ++
        ((u :: post).takeWhile isNameUnit).rtakeWhile isWhitespace =
          (u :: post).takeWhile isNameUnit := by
      rw [htrim]
      exact List.rdropWhile_append_rtakeWhile
    refine ⟨_, hown, ((u :: post).takeWhile isNameUnit).rtakeWhile isWhitespace ++
      (u :: post).dropWhile isNameUnit, ?_, ?_⟩
    · rw [← List.append_assoc, hrun, List.takeWhile_append_dropWhile]
    · intro v hv
      have hblanks : ∀ w ∈ ((u :: post).takeWhile isNameUnit).rtakeWhile isWhitespace,
          isNameUnit w = true := by
        intro w hw
        apply List.mem_takeWhile_imp (l := u :: post)
        exact (List.rtakeWhile_suffix _ _).subset hw
      rw [List.takeWhile_append_of_pos hblanks] at hv
      have hstop : ((u :: post).dropWhile isNameUnit).takeWhile isNameUnit = [] := by
        apply List.takeWhile_eq_nil_iff.mpr
        exact fun h => by simpa using List.dropWhile_get_zero_not isNameUnit (u :: post) h
      rw [hstop, List.append_nil] at hv
      exact (isNameUnit_blank (hblanks v hv)).mp (List.mem_rtakeWhile_imp hv)
  · rintro ⟨name, hname, rest, hpost, hblanks⟩
    have htrimmed : ∀ name ∈ ownNames, trim name = name := by decide
    rw [hpost, takeWhile_own hname, trim_append_blanks, htrimmed name hname]
    · exact hname
    · intro v hv
      rw [hblanks v hv]
      decide

/-- **The pattern.** A municipality is external exactly when the text names one
and the first that it names is not the own one alone. -/
theorem identifiesExternalMunicipality_iff (platform : TextPlatform) (value : JsString) :
    identifiesExternalMunicipality platform (normalize platform value) = true ↔
      (FirstMatch.after municipalityOf isNameUnit (nameText platform value)).isSome = true ∧
        ¬ FirstNameEnds platform value := by
  have hcapture : FirstMatch.capture municipalityOf isNameUnit
      (normalize platform (normalize platform value)) =
        (FirstMatch.after municipalityOf isNameUnit (nameText platform value)).map
          (List.takeWhile isNameUnit) := rfl
  unfold identifiesExternalMunicipality FirstNameEnds
  rw [hcapture]
  cases hafter : FirstMatch.after municipalityOf isNameUnit (nameText platform value) with
  | none => simp
  | some post =>
      obtain ⟨before, htext, hhead⟩ := FirstMatch.after_eq_some hafter
      cases post with
      | nil => simp at hhead
      | cons u post =>
          have hu : isNameUnit u = true := by simpa using hhead
          have hsolid : ¬ isWhitespace u = true := behind_literal htext
          have hnonempty : trim ((u :: post).takeWhile isNameUnit) ≠ [] := by
            intro hnil
            rw [trim, List.takeWhile_cons, if_pos hu, List.dropWhile_cons_of_neg hsolid,
              List.reverse_eq_nil_iff, List.dropWhile_eq_nil_iff] at hnil
            exact hsolid (hnil u (by simp))
          have hlength : 0 < (trim ((u :: post).takeWhile isNameUnit)).length :=
            List.length_pos_iff.mpr hnonempty
          simp only [Option.map_some, Option.isSome_some, Option.some.injEq, true_and,
            Bool.and_eq_true, decide_eq_true_eq, hlength]
          rw [trim_run_mem_ownNames hsolid hu]

/-! ## What a title names -/

/-- The title contains the name of the own municipality. -/
def NamesOwn (platform : TextPlatform) (title : JsString) : Prop :=
  ∃ name ∈ ownNames, municipalityOf ++ name <:+: nameText platform title

/-- The title names a municipality that does not start with the own name. -/
def NamesOther (platform : TextPlatform) (title : JsString) : Prop :=
  ∃ suffix ∈ (nameText platform title).tails, municipalityOf <+: suffix ∧
    (suffix.drop municipalityOf.length).head?.any isLowerLetter = true ∧
      ∀ name ∈ ownNames, ¬ name <+: suffix.drop municipalityOf.length

instance (platform : TextPlatform) (title : JsString) : Decidable (NamesOwn platform title) := by
  unfold NamesOwn
  infer_instance

instance (platform : TextPlatform) (title : JsString) : Decidable (NamesOther platform title) := by
  unfold NamesOther
  infer_instance

/-- A title that names a municipality has the first match of the pattern. -/
theorem names_match {platform : TextPlatform} {title : JsString}
    (hnames : NamesOwn platform title ∨ NamesOther platform title) :
    (FirstMatch.after municipalityOf isNameUnit (nameText platform title)).isSome = true := by
  rcases hnames with ⟨name, hname, before, rest, htext⟩ | ⟨suffix, htail, hliteral, hhead, -⟩
  · have hletters : ∀ name ∈ ownNames, name.head?.any isNameUnit = true := by decide
    rw [← htext, ← List.append_assoc, List.append_assoc]
    exact FirstMatch.after_isSome before (FirstMatch.head?_append_any (hletters name hname))
  · obtain ⟨before, htext⟩ := (List.mem_tails _ _).mp htail
    obtain ⟨rest, rfl⟩ := hliteral
    rw [List.drop_left] at hhead
    have hunit : rest.head?.any isNameUnit = true := by
      cases rest with
      | nil => simp at hhead
      | cons u rest =>
          simp only [List.head?_cons, Option.any_some] at hhead ⊢
          simp [isNameUnit, hhead]
    rw [← htext, ← List.append_assoc]
    exact FirstMatch.after_isSome before hunit

/-- What the pattern reads of a title with more behind it. -/
theorem nameText_blank (platform : TextPlatform) {title : JsString} (label : JsString)
    (htitle : nameText platform title ≠ []) :
    ∃ more, nameText platform (title ++ 0x20 :: label) = nameText platform title ++ more := by
  have hnonempty : normalize platform title ≠ [] := by
    intro hnil
    apply htitle
    rw [nameText, hnil, normalize, plain, platform.toLowerCase_nil, platform.nfd_nil]
    rfl
  obtain ⟨more, hmore, hnone | ⟨rest, hrest⟩⟩ := normalize_blank platform label hnonempty
  · exact ⟨[], by rw [nameText, hmore, hnone, List.append_nil, List.append_nil, nameText]⟩
  · obtain ⟨after, hafter, -⟩ := normalize_blank platform rest htitle
    exact ⟨after, by rw [nameText, hmore, hrest, hafter, nameText]⟩

/-- A title and a label, with a type, as an item. -/
def CitationInput.item (input : CitationInput) (sourceType : JsString) : EvidenceItem where
  sourceType
  documentTitle := input.title
  citationLabel := buildCitationLabel input

/-- One of the keywords of the external class is in the title or the label. -/
def HasExternalKeyword (platform : TextPlatform) (text : JsString) : Prop :=
  includesAny (normalize platform text)
    (externalReference.titleKeywords.map (normalize platform)) = true

/-- A class of the pack is external exactly when it is the first. -/
theorem isExternal_iff {authority : SourceAuthority} (hauthority : authority ∈ municipalAntigua) :
    authority.isExternal = true ↔ authority = externalReference := by
  constructor
  · intro hexternal
    rcases List.mem_cons.mp hauthority with rfl | hlocal
    · rfl
    · rw [localAuthorities_local authority hlocal] at hexternal
      cases hexternal
  · rintro rfl
    rfl

/-- An item is an external reference exactly when the pattern or a keyword finds one. -/
theorem resolveSourceAuthority_external (platform : TextPlatform) (evidence : EvidenceItem) :
    resolveSourceAuthority platform evidence municipalAntigua = some externalReference ↔
      identifiesExternalMunicipality platform (normalize platform evidence.titleText) = true ∨
        HasExternalKeyword platform evidence.titleText := by
  have hselects : externalReference.selects platform (normalize platform evidence.titleText)
      (normalize platform evidence.sourceType) = true ↔
        HasExternalKeyword platform evidence.titleText := by
    simp [SourceAuthority.selects, HasExternalKeyword, externalReference]
  unfold resolveSourceAuthority
  by_cases hname : identifiesExternalMunicipality platform
      (normalize platform evidence.titleText) = true
  · simp [hname, externalReferenceAuthority_municipal]
  · simp only [hname, if_false, false_or, Bool.false_eq_true]
    rw [← hselects, municipalAntigua]
    by_cases hkeyword : externalReference.selects platform
        (normalize platform evidence.titleText) (normalize platform evidence.sourceType) = true
    · simp [hkeyword]
    · simp only [List.find?_cons, hkeyword, Bool.false_eq_true]
      rw [iff_false]
      intro hfound
      have hlocal := localAuthorities_local _ (List.mem_of_find?_eq_some hfound)
      cases hlocal

theorem resolveSourceAuthority_mem {platform : TextPlatform} {evidence : EvidenceItem}
    {authority : SourceAuthority}
    (hfound : resolveSourceAuthority platform evidence municipalAntigua = some authority) :
    authority ∈ municipalAntigua := by
  unfold resolveSourceAuthority at hfound
  simp only at hfound
  split at hfound
  · exact List.mem_of_find?_eq_some hfound
  · exact List.mem_of_find?_eq_some hfound

/-- An item whose title names a municipality is an external reference exactly
when the own name does not stand alone first, or a keyword occurs. -/
theorem resolve_of_names {platform : TextPlatform} {evidence : EvidenceItem}
    (hnames : NamesOwn platform evidence.documentTitle ∨
      NamesOther platform evidence.documentTitle) :
    resolveSourceAuthority platform evidence municipalAntigua = some externalReference ↔
      ¬ FirstNameEnds platform evidence.titleText ∨
        HasExternalKeyword platform evidence.titleText := by
  obtain ⟨post, hpost⟩ := Option.isSome_iff_exists.mp (names_match hnames)
  have htitle : nameText platform evidence.documentTitle ≠ [] := by
    intro hnil
    rw [hnil] at hpost
    cases hpost
  obtain ⟨more, hmore⟩ := nameText_blank platform evidence.citationLabel htitle
  have hmatch : (FirstMatch.after municipalityOf isNameUnit
      (nameText platform evidence.titleText)).isSome = true := by
    rw [EvidenceItem.titleText, hmore, FirstMatch.after_append hpost]
    rfl
  rw [resolveSourceAuthority_external, identifiesExternalMunicipality_iff, hmatch]
  simp

/-- **The own municipality and the others.** An item keeps both rules exactly
when: if its title names the own municipality only, the first municipality of
title and label is the own name alone and no keyword of the external class
occurs; and if its title names another one, the first is not the own name alone
or such a keyword occurs. -/
theorem ownMunicipality_iff (platform : TextPlatform) (input : CitationInput)
    (sourceType : JsString) :
    ((NamesOwn platform input.title → ¬ NamesOther platform input.title →
        ∀ authority, resolveSourceAuthority platform (input.item sourceType) municipalAntigua =
          some authority → authority.isExternal = false) ∧
      (NamesOther platform input.title →
        resolveSourceAuthority platform (input.item sourceType) municipalAntigua =
          some externalReference)) ↔
    (NamesOwn platform input.title → ¬ NamesOther platform input.title →
        FirstNameEnds platform (input.item sourceType).titleText ∧
          ¬ HasExternalKeyword platform (input.item sourceType).titleText) ∧
      (NamesOther platform input.title →
        ¬ FirstNameEnds platform (input.item sourceType).titleText ∨
          HasExternalKeyword platform (input.item sourceType).titleText) := by
  apply and_congr
  · refine forall_congr' fun hown => forall_congr' fun _ => ?_
    have hresolve := @resolve_of_names platform (input.item sourceType) (Or.inl hown)
    have hlocal : (∀ authority, resolveSourceAuthority platform (input.item sourceType)
        municipalAntigua = some authority → authority.isExternal = false) ↔
          ¬ resolveSourceAuthority platform (input.item sourceType) municipalAntigua =
            some externalReference := by
      constructor
      · intro hall hexternal
        cases hall _ hexternal
      · intro hnot authority hfound
        rw [← Bool.not_eq_true, isExternal_iff (resolveSourceAuthority_mem hfound)]
        rintro rfl
        exact hnot hfound
    rw [hlocal, hresolve, not_or, not_not]
  · refine forall_congr' fun hother => ?_
    exact @resolve_of_names platform (input.item sourceType) (Or.inr hother)

/-! ## Sample titles -/

/-- ASCII letters in lower case, and no decomposition. -/
def asciiPlatform : TextPlatform where
  toLowerCase := List.map lowerUnit
  nfd := id
  toLowerCase_nil := rfl
  nfd_nil := rfl
  toLowerCase_blank left right := by
    rw [List.map_append, List.map_cons]
    rfl
  nfd_blank _ _ := rfl

/-- An own manual, cited by its article. -/
def ownManual : CitationInput where
  title := js "Manual de la Municipalidad de La Antigua Guatemala"
  sectionPath := []
  heading := none
  pageStart := none
  articleNumber := some (js "5")

/-- An agreement with a neighbour, named second. -/
def neighbourAgreement : CitationInput where
  title := js "Convenio: Municipalidad de Antigua Guatemala; Municipalidad de Jocotenango"
  sectionPath := []
  heading := none
  pageStart := some 1
  articleNumber := none

/-- The own manual is an external reference; the agreement is none. -/
theorem ownManual_external :
    ¬ ((∀ (input : CitationInput) (sourceType : JsString),
        NamesOwn asciiPlatform input.title → ¬ NamesOther asciiPlatform input.title →
          ∀ authority, resolveSourceAuthority asciiPlatform (input.item sourceType)
            municipalAntigua = some authority → authority.isExternal = false) ∨
      ∀ (input : CitationInput) (sourceType : JsString), NamesOther asciiPlatform input.title →
        resolveSourceAuthority asciiPlatform (input.item sourceType) municipalAntigua =
          some externalReference) := by
  rintro (hown | hother)
  · have hresolve : resolveSourceAuthority asciiPlatform (ownManual.item (js "manual"))
        municipalAntigua = some externalReference := by decide +kernel
    have hlocal := hown ownManual (js "manual") (by decide +kernel) (by decide +kernel) _ hresolve
    cases hlocal
  · have hresolve : resolveSourceAuthority asciiPlatform (neighbourAgreement.item (js "law"))
        municipalAntigua ≠ some externalReference := by decide +kernel
    exact hresolve (hother neighbourAgreement (js "law") (by decide +kernel))

end Procedure
