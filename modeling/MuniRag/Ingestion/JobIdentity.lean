import MuniRag.Api.DerivedIds
import MuniRag.Ingestion.Identity
import MuniRag.Lib.Json

/-!
# What the digests of a job tell apart

The texts that `buildIngestionJobIdentity` digests are the texts of JSON
documents, so that a digest without collisions tells requests apart.  **Equal work
digests are equal works** (`workSha256_iff`), **equal request digests are equal
requests** (`requestSha256_iff`): tenant, principal and version up to letter case,
artifact, pipeline and attempts, an omitted `maxAttempts` counting as the default.
-/

namespace Ingestion

open Results Json

/-! ## The documents under the texts -/

/-- The object of a list of members with the source's keys. -/
def jsonDocument {ν : Type} (members : List (String × Value ν)) : Value ν :=
  .object (members.map fun member => (js member.1, member.2))

section Documents

variable {ν : Type} (number : Int → ν)

/-- The object that `canonicalPipelineConfig` prints. -/
def PipelineConfig.document (config : PipelineConfig) : Value ν :=
  jsonDocument [
    ("contract_version", .string (js "v1")),
    ("extractor", jsonDocument [
      ("name", .string config.extractorName),
      ("version", .string config.extractorVersion)]),
    ("chunk_planner", jsonDocument [
      ("name", .string (js "section_text_v1")),
      ("max_chars", .number (number config.maxChars)),
      ("overlap_chars", .number (number config.overlapChars))]),
    ("embedding", jsonDocument [
      ("provider", .string config.embeddingProvider),
      ("model", .string config.embeddingModel),
      ("dimension", .number (number config.embeddingDimension))])]

end Documents

/-- The object whose text identifies the work. -/
def workDocument (tenantId documentVersionId : Uuid) (artifactSha256 : JsString)
    (pipelineConfigSha256 : Sha256) : Value Int :=
  jsonDocument [
    ("contract_version", .string (js "v1")),
    ("job_type", .string (js jobType)),
    ("tenant_id", .string (uuidText tenantId)),
    ("document_version_id", .string (uuidText documentVersionId)),
    ("artifact_sha256", .string artifactSha256),
    ("pipeline_config_sha256", .string pipelineConfigSha256)]

/-- The object whose text identifies the request. -/
def requestDocument (principalId : Uuid) (workSha256 : Sha256) (maxAttempts : Int) : Value Int :=
  jsonDocument [
    ("contract_version", .string (js "v1")),
    ("principal_id", .string (uuidText principalId)),
    ("work_sha256", .string workSha256),
    ("max_attempts", .number maxAttempts)]

/-! ## Texts with nothing to escape -/

/-- The units of component identifiers, keys, UUIDs and digests. -/
def isWordUnit (u : UInt16) : Bool := isAlphanumeric u || isComponentMark u

/-- A text of such units. -/
def IsWord (text : JsString) : Prop := ∀ u ∈ text, isWordUnit u = true

instance : DecidablePred IsWord := fun text =>
  List.decidableBAll (fun u => isWordUnit u = true) text

/-- A word has neither a quote, nor a backslash, nor a control, nor a surrogate. -/
theorem quoteUnit_word {u : UInt16} (h : isWordUnit u = true) :
    quoteUnit u = [u] ∧ isHighSurrogate u = false := by
  have hbounds : 0x2d ≤ u.toNat ∧ u.toNat ≤ 0x7a ∧ u.toNat ≠ 0x5c := by
    simp only [isWordUnit, isAlphanumeric, isComponentMark, isKeyMark, isLowerLetter,
      isUpperLetter, isDecimalDigit, Bool.or_eq_true, Bool.and_eq_true, decide_eq_true_eq,
      beq_iff_eq, UInt16.le_iff_toNat_le, ← UInt16.toNat_inj, UInt16.reduceToNat] at h
    omega
  obtain ⟨hlow, hhigh, hslash⟩ := hbounds
  have hne : ∀ v ∈ shortEscapes, v.1 ≠ u := by
    intro v hv hsame
    subst hsame
    simp only [shortEscapes, List.mem_cons, List.not_mem_nil, or_false] at hv
    rcases hv with rfl | rfl | rfl | rfl | rfl | rfl | rfl
    all_goals revert hlow hslash; decide
  have hfind : shortEscapes.find? (·.1 == u) = none := by
    refine List.find?_eq_none.mpr fun v hv => ?_
    simpa using hne v hv
  have hsurrogate : isHighSurrogate u = false ∧ isLowSurrogate u = false := by
    simp only [isHighSurrogate, isLowSurrogate, Bool.and_eq_false_iff, decide_eq_false_iff_not,
      UInt16.le_iff_toNat_le, UInt16.reduceToNat]
    omega
  have hcontrol : ¬ u < 0x20 := by
    simp only [UInt16.lt_iff_toNat_lt, UInt16.reduceToNat]
    omega
  refine ⟨?_, hsurrogate.1⟩
  rw [quoteUnit, hfind]
  simp [hsurrogate, hcontrol]

theorem quoteUnits_word {text : JsString} (h : IsWord text) : quoteUnits text = text := by
  induction text using quoteUnits.induct with
  | case1 => rfl
  | case2 u =>
      rw [quoteUnits]
      exact (quoteUnit_word (h u List.mem_cons_self)).1
  | case3 u v tail hpair ih =>
      have hnot := (quoteUnit_word (h u List.mem_cons_self)).2
      rw [hnot] at hpair
      cases hpair
  | case4 u v tail hpair ih =>
      have hu := (quoteUnit_word (h u List.mem_cons_self)).1
      rw [quoteUnits, if_neg hpair, hu, ih fun w hw => h w (List.mem_cons_of_mem _ hw)]
      rfl

theorem quote_word {text : JsString} (h : IsWord text) : quote text = jsonText text := by
  rw [quote, quoteUnits_word h]
  rfl

theorem isWord_of_isComponent {n : Nat} {text : JsString} (h : isComponent n text = true) :
    IsWord text := by
  intro u hu
  cases text with
  | nil => exact absurd hu List.not_mem_nil
  | cons first rest =>
      simp only [isComponent, headTail, Bool.and_eq_true, List.all_eq_true] at h
      rcases List.mem_cons.mp hu with rfl | hrest
      · simp [isWordUnit, h.1.1]
      · exact h.1.2 u hrest

/-- A lower-case hexadecimal digit. -/
def isHexUnit (u : UInt16) : Bool := isDecimalDigit u || (0x61 ≤ u && u ≤ 0x66)

theorem isWordUnit_of_isHexUnit {u : UInt16} (h : isHexUnit u = true) : isWordUnit u = true := by
  simp only [isHexUnit, Bool.or_eq_true, Bool.and_eq_true, decide_eq_true_eq] at h
  rcases h with hdigit | ⟨hlow, hhigh⟩
  · simp [isWordUnit, isAlphanumeric, hdigit]
  · have hletter : isLowerLetter u = true := by
      simp only [isLowerLetter, Bool.and_eq_true, decide_eq_true_eq, UInt16.le_iff_toNat_le,
        UInt16.reduceToNat] at hlow hhigh ⊢
      omega
    simp [isWordUnit, isAlphanumeric, hletter]

theorem isHexUnit_hexUnit {d : Nat} (h : d < 16) : isHexUnit (hexUnit d) = true := by
  interval_cases d <;> rfl

theorem isWord_uuidText (id : Uuid) : IsWord (uuidText id) := by
  have hdigits : ∀ digits : List Nat, (∀ d ∈ digits, d < 16) → IsWord (digits.map hexUnit) := by
    intro digits hlt u hu
    obtain ⟨d, hd, rfl⟩ := List.mem_map.mp hu
    exact isWordUnit_of_isHexUnit (isHexUnit_hexUnit (hlt d hd))
  have hlt : ∀ d ∈ (List.range 32).map (fun i => id / 16 ^ (31 - i) % 16), d < 16 := by
    intro d hd
    obtain ⟨i, -, rfl⟩ := List.mem_map.mp hd
    exact Nat.mod_lt _ (by decide)
  have hdash : IsWord [0x2d] := by
    intro u hu
    obtain rfl := List.mem_singleton.mp hu
    rfl
  have happend : ∀ {s t : JsString}, IsWord s → IsWord t → IsWord (s ++ t) := by
    intro s t hs ht u hu
    rcases List.mem_append.mp hu with h | h
    · exact hs u h
    · exact ht u h
  have hpart : ∀ i n, ∀ d ∈ (((List.range 32).map (fun i => id / 16 ^ (31 - i) % 16)).drop i).take n,
      d < 16 := fun i n d hd => hlt d (List.mem_of_mem_drop (List.mem_of_mem_take hd))
  rw [uuidText, uuidDashed]
  refine happend (happend (happend (happend (happend (happend (happend (happend ?_ hdash) ?_)
    hdash) ?_) hdash) ?_) hdash) ?_
  · exact hdigits _ fun d hd => hlt d (List.mem_of_mem_take hd)
  · exact hdigits _ (hpart 8 4)
  · exact hdigits _ (hpart 12 4)
  · exact hdigits _ (hpart 16 4)
  · exact hdigits _ fun d hd => hlt d (List.mem_of_mem_drop hd)

/-! ## The texts are the texts of the documents -/

theorem intercalate_cons (separator first : JsString) (rest : List JsString) :
    List.intercalate separator (first :: rest) =
      first ++ rest.flatMap fun part => separator ++ part := by
  induction rest generalizing first with
  | nil => simp [List.intercalate]
  | cons second rest ih =>
      have hstep : List.intercalate separator (first :: second :: rest) =
          first ++ (separator ++ List.intercalate separator (second :: rest)) := by
        simp [List.intercalate]
      rw [hstep, ih, List.flatMap_cons, List.append_assoc]

section Texts

variable {ν : Type} (numbers : NumberText ν)

/-- A member as `JSON.stringify` prints it. -/
def memberText (member : String × Value ν) : JsString :=
  jsonText (js member.1) ++ [0x3a] ++ stringify numbers member.2

theorem stringifyEntries_words {members : List (String × Value ν)}
    (hkeys : ∀ key ∈ members.map Prod.fst, IsWord (js key)) :
    stringifyEntries numbers (members.map fun member => (js member.1, member.2)) =
      (members.flatMap fun member => [0x2c] ++ memberText numbers member) ++ [0x7d] := by
  induction members with
  | nil => rfl
  | cons member members ih =>
      rw [List.map_cons] at hkeys
      obtain ⟨hkey, hrest⟩ := List.forall_mem_cons.mp hkeys
      rw [List.map_cons, stringifyEntries, ih hrest, quote_word hkey, List.flatMap_cons]
      simp [memberText]

/-- The text of a document is the object of the texts of its members. -/
theorem stringify_document {members : List (String × Value ν)}
    (hkeys : ∀ key ∈ members.map Prod.fst, IsWord (js key)) :
    stringify numbers (jsonDocument members) =
      jsonObject (members.map fun member => (member.1, stringify numbers member.2)) := by
  cases members with
  | nil => rfl
  | cons member members =>
      rw [List.map_cons] at hkeys
      obtain ⟨hkey, hrest⟩ := List.forall_mem_cons.mp hkeys
      rw [jsonDocument, List.map_cons, stringify, stringifyEntries_words numbers hrest,
        quote_word hkey, jsonObject, List.map_cons, List.map_cons, intercalate_cons]
      simp [memberText, List.flatMap_map, Function.comp_def]

/-- The numbers of a configuration, printed as the model of its text prints them. -/
def PrintsAs (number : Int → ν) (n : Int) : Prop := numbers.text (number n) = jsonNumber n

/-- The component identifiers of a configuration that passes the checks. -/
def PipelineConfig.HasWords (config : PipelineConfig) : Prop :=
  IsWord config.extractorName ∧ IsWord config.extractorVersion ∧
    IsWord config.embeddingProvider ∧ IsWord config.embeddingModel

theorem canonicalText_document {number : Int → ν} {config : PipelineConfig}
    (hwords : config.HasWords)
    (hnumbers : ∀ n ∈ [config.maxChars, config.overlapChars, config.embeddingDimension],
      PrintsAs numbers number n) :
    config.canonicalText = stringify numbers (config.document number) := by
  obtain ⟨hname, hversion, hprovider, hmodel⟩ := hwords
  simp only [List.forall_mem_cons, PrintsAs] at hnumbers
  obtain ⟨hmax, hoverlap, hdimension, -⟩ := hnumbers
  have hword : IsWord (js "v1") ∧ IsWord (js "section_text_v1") := by decide
  unfold PipelineConfig.document PipelineConfig.canonicalText
  simp (disch := simp only [List.map_cons, List.map_nil]; decide) only
    [stringify_document numbers, List.map_cons, List.map_nil]
  simp only [stringify, quote_word hword.1, quote_word hword.2, quote_word hname,
    quote_word hversion, quote_word hprovider, quote_word hmodel, hmax, hoverlap, hdimension]

end Texts

/-- The integers as numbers of JSON. -/
def integerText : NumberText Int where
  text := jsonNumber
  injective _ _ h := Api.numberText_injective h
  units n u hu := by
    rcases Api.mem_numberText hu with hdigit | rfl
    · simp [isNumberUnit, hdigit]
    · rfl
  nonempty n := by
    intro hempty
    have hlength := congrArg List.length hempty
    cases n with
    | ofNat n =>
        have htext : jsonNumber (Int.ofNat n) = js n.repr := rfl
        rw [htext] at hempty
        exact absurd (Api.js_injective (s := n.repr) (t := "") hempty) (by simp)
    | negSucc n =>
        have htext : jsonNumber (Int.negSucc n) = js ("-" ++ (n + 1).repr) := rfl
        rw [htext] at hempty
        exact absurd (Api.js_injective (s := "-" ++ (n + 1).repr) (t := "") hempty) (by simp)

theorem workText_document {tenant version : Uuid} {artifact : JsString} {pipeline : Sha256}
    (hartifact : IsWord artifact) (hpipeline : IsWord pipeline) :
    workText tenant version artifact pipeline =
      stringify integerText (workDocument tenant version artifact pipeline) := by
  have hword : IsWord (js "v1") ∧ IsWord (js jobType) := by decide
  unfold workText workDocument
  simp (disch := simp only [List.map_cons, List.map_nil]; decide) only
    [stringify_document integerText, List.map_cons, List.map_nil]
  simp only [stringify, quote_word hword.1, quote_word hword.2, quote_word hartifact,
    quote_word hpipeline, quote_word (isWord_uuidText _)]

theorem requestText_document {principal : Uuid} {work : Sha256} {attempts : Int}
    (hwork : IsWord work) :
    requestText principal work attempts =
      stringify integerText (requestDocument principal work attempts) := by
  have hword : IsWord (js "v1") := by decide
  unfold requestText requestDocument
  simp (disch := simp only [List.map_cons, List.map_nil]; decide) only
    [stringify_document integerText, List.map_cons, List.map_nil]
  simp only [stringify, quote_word hword, quote_word hwork, quote_word (isWord_uuidText _)]
  rfl

/-! ## UUIDs up to letter case -/

/-- Two texts that are one text in lower case. -/
def SameUuid (text other : JsString) : Prop := text.map lowerUnit = other.map lowerUnit

theorem ofDigits_inj {digits other : List Nat} (hlength : digits.length = other.length)
    (hdigits : ∀ d ∈ digits, d < 16) (hother : ∀ d ∈ other, d < 16)
    (h : ofDigits digits = ofDigits other) : digits = other := by
  induction digits using List.reverseRecOn generalizing other with
  | nil => exact (List.length_eq_zero_iff.mp hlength.symm).symm
  | append_singleton digits d ih =>
      obtain rfl | ⟨init, e, rfl⟩ := List.eq_nil_or_concat other
      · simp at hlength
      · rw [List.concat_eq_append] at *
        have hd := hdigits d (by simp)
        have he := hother e (by simp)
        rw [ofDigits_concat, ofDigits_concat] at h
        have hinit := ih (by simpa using hlength) (fun d hd => hdigits d (by simp [hd]))
          (fun d hd => hother d (by simp [hd])) (by omega)
        have hlast : d = e := by omega
        rw [hinit, hlast]

/-- A digit in lower case is known by its value. -/
theorem lowerUnit_hexDigit {u : UInt16} {d : Nat} (h : hexDigit u = some d) :
    lowerUnit u = hexUnit d := by
  have hlower : hexDigit (lowerUnit u) = some d := (hexDigit_lower u).trans h
  have hd : d < 16 := hexDigit_lt h
  have hsmall : (lowerUnit u).toNat < 128 ∧ ¬ (0x41 ≤ (lowerUnit u).toNat ∧
      (lowerUnit u).toNat ≤ 0x5a) := by
    by_cases hupper : 0x41 ≤ u ∧ u ≤ 0x5a
    · obtain ⟨hlow, hhigh, hadd⟩ := toNat_add_case hupper
      rw [lowerUnit_upper hupper, hadd]
      omega
    · rw [lowerUnit_other hupper]
      simp only [hexDigit, Bool.and_eq_true, decide_eq_true_eq, UInt16.le_iff_toNat_le,
        UInt16.reduceToNat] at h hupper
      split_ifs at h with hdecimal hletter hcapital
      all_goals omega
  generalize lowerUnit u = v at hlower hsmall
  apply UInt16.toNat_inj.mp
  simp only [hexDigit, Bool.and_eq_true, decide_eq_true_eq, UInt16.le_iff_toNat_le,
    UInt16.reduceToNat] at hlower
  split_ifs at hlower with hdecimal hletter hcapital
  · have hle : 0x30 ≤ v := UInt16.le_iff_toNat_le.mpr hdecimal.1
    have hsub : (v - 0x30).toNat = v.toNat - 0x30 := UInt16.toNat_sub_of_le _ _ hle
    rw [hsub, Option.some.injEq] at hlower
    rw [hexUnit, if_pos (by omega), Nat.toUInt16_eq, UInt16.toNat_ofNat']
    omega
  · have hle : 0x61 ≤ v := UInt16.le_iff_toNat_le.mpr hletter.1
    have hsub : (v - 0x61).toNat = v.toNat - 0x61 := UInt16.toNat_sub_of_le _ _ hle
    rw [hsub, Option.some.injEq] at hlower
    rw [hexUnit, if_neg (by omega), Nat.toUInt16_eq, UInt16.toNat_ofNat']
    omega
  · exact absurd ⟨hcapital.1, by omega⟩ hsmall.2

/-- The lower-case digits of a text, from their values. -/
theorem mapM_hexDigit_lower {s : JsString} {digits : List Nat} (h : s.mapM hexDigit = some digits) :
    s.map lowerUnit = digits.map hexUnit := by
  induction s generalizing digits with
  | nil =>
      obtain rfl : [] = digits := by simpa using h
      rfl
  | cons u s ih =>
      simp only [List.mapM_cons, Option.bind_eq_bind, Option.bind_eq_some_iff] at h
      obtain ⟨d, hd, rest, hrest, hdigits⟩ := h
      obtain rfl := Option.some.inj hdigits
      rw [List.map_cons, List.map_cons, ih hrest, lowerUnit_hexDigit hd]

/-- Texts with their dashes in the same places and the same units between them. -/
theorem eq_of_shape {s t : JsString} (hshape : s.map (· == 0x2d) = t.map (· == 0x2d))
    (hunits : s.filter (· != 0x2d) = t.filter (· != 0x2d)) : s = t := by
  induction s generalizing t with
  | nil => exact (List.map_eq_nil_iff.mp hshape.symm).symm
  | cons u s ih =>
      cases t with
      | nil => cases hshape
      | cons v t =>
          rw [List.map_cons, List.map_cons, List.cons.injEq] at hshape
          obtain ⟨hhead, htail⟩ := hshape
          by_cases hdash : u = 0x2d
          · have hdash' : v = 0x2d := by simpa [hdash] using hhead.symm
            subst hdash hdash'
            rw [ih htail (by simpa using hunits)]
          · have hdash' : v ≠ 0x2d := by
              rintro rfl
              simp [hdash] at hhead
            simp only [List.filter_cons, bne_iff_ne, ne_eq, hdash, hdash', not_false_eq_true,
              if_true, List.cons.injEq] at hunits
            rw [hunits.1, ih htail hunits.2]

/-- What a UUID text is made of. -/
theorem uuidValue_parts {s : JsString} {id : Uuid} (h : uuidValue s = some id) :
    s.map (· == 0x2d) = (List.range 36).map (fun i => decide (i ∈ [8, 13, 18, 23])) ∧
      ∃ digits, (s.filter (· != 0x2d)).mapM hexDigit = some digits ∧ ofDigits digits = id ∧
        digits.length = 32 ∧ ∀ d ∈ digits, d < 16 := by
  obtain ⟨digits, hdigits, hvalue⟩ := Option.map_eq_some_iff.mp h
  rw [uuidDigits] at hdigits
  split_ifs at hdigits with hshape
  obtain ⟨hlength, hlt⟩ := mapM_hexDigit_lt hdigits
  have hcount : (s.filter (· != 0x2d)).length = 32 := by
    have hmap : ((s.map (· == 0x2d)).filter (! ·)).length = (s.filter (· != 0x2d)).length := by
      rw [List.filter_map, List.length_map]
      rfl
    rw [← hmap, hshape]
    decide
  exact ⟨hshape, digits, hdigits, hvalue, hlength.trans hcount, hlt⟩

theorem filter_lower (s : JsString) :
    (s.map lowerUnit).filter (· != 0x2d) = (s.filter (· != 0x2d)).map lowerUnit := by
  rw [List.filter_map]
  congr 1
  refine List.filter_congr fun u _ => ?_
  simp only [Function.comp_apply, bne, lowerUnit_dash]

/-- **Two UUID texts have one value exactly when they are one text up to letter case.** -/
theorem sameUuid_iff {text other : JsString} {id id' : Uuid} (hid : uuidValue text = some id)
    (hid' : uuidValue other = some id') : SameUuid text other ↔ id = id' := by
  constructor
  · intro hsame
    have hvalue : some id = some id' := by
      rw [← hid, ← hid', ← uuidValue_lower text, ← uuidValue_lower other, hsame]
    exact Option.some.inj hvalue
  · rintro rfl
    obtain ⟨hshape, digits, hdigits, hvalue, hlength, hlt⟩ := uuidValue_parts hid
    obtain ⟨hshape', digits', hdigits', hvalue', hlength', hlt'⟩ := uuidValue_parts hid'
    obtain rfl : digits = digits' := ofDigits_inj (hlength.trans hlength'.symm) hlt hlt'
      (hvalue.trans hvalue'.symm)
    have hdash : ∀ s : JsString, (s.map lowerUnit).map (· == 0x2d) = s.map (· == 0x2d) := by
      intro s
      rw [List.map_map]
      exact List.map_congr_left fun u _ => lowerUnit_dash u
    refine eq_of_shape ?_ ?_
    · rw [hdash, hdash, hshape, hshape']
    · rw [filter_lower, filter_lower, mapM_hexDigit_lower hdigits, mapM_hexDigit_lower hdigits']

/-! ## Digests -/

/-- What is known of a configuration that passes the checks. -/
theorem canonicalPipelineConfig_ok {config : PipelineConfig} {text : JsString}
    (h : canonicalPipelineConfig config = .ok text) :
    text = config.canonicalText ∧ config.contractVersion = js "v1" ∧
      config.chunkPlannerName = js "section_text_v1" ∧ config.HasWords := by
  simp only [canonicalPipelineConfig, then_ok, require_ok, return_ok] at h
  obtain ⟨_, hcontract, _, hcomponents, _, _, _, _, rfl⟩ := h
  simp only [List.forall_mem_cons] at hcomponents
  obtain ⟨hname, hversion, hprovider, hmodel, -⟩ := hcomponents
  exact ⟨rfl, hcontract.1, hcontract.2, isWord_of_isComponent hname,
    isWord_of_isComponent hversion, isWord_of_isComponent hprovider, isWord_of_isComponent hmodel⟩

/-- **The canonical text tells configurations apart.** -/
theorem canonicalPipelineConfig_inj {config other : PipelineConfig} {text : JsString}
    (h : canonicalPipelineConfig config = .ok text)
    (hother : canonicalPipelineConfig other = .ok text) : config = other := by
  obtain ⟨htext, hcontract, hplanner, hwords⟩ := canonicalPipelineConfig_ok h
  obtain ⟨htext', hcontract', hplanner', hwords'⟩ := canonicalPipelineConfig_ok hother
  rw [@canonicalText_document _ integerText id _ hwords fun _ _ => rfl] at htext
  rw [@canonicalText_document _ integerText id _ hwords' fun _ _ => rfl] at htext'
  have hdocument := stringify_injective (htext.symm.trans htext')
  simp only [PipelineConfig.document, jsonDocument, List.map_cons, List.map_nil,
    Value.object.injEq, Value.string.injEq, Value.number.injEq, List.cons.injEq, Prod.mk.injEq,
    id_eq, true_and, and_true] at hdocument
  cases config
  cases other
  simp_all

/-- What an accepted request is made of, and its two digests. -/
theorem build_parts {platform : Platform} {input : EnqueueInput} {identity : JobIdentity}
    (h : buildIngestionJobIdentity platform input = .ok identity) :
    uuidValue input.tenantId = some identity.tenantId ∧
      uuidValue input.principalId = some identity.principalId ∧
      uuidValue input.documentVersionId = some identity.documentVersionId ∧
      isSha256Hex input.artifactSha256 = true ∧
      ∃ text, canonicalPipelineConfig input.pipelineConfig = .ok text ∧
        identity.workSha256 = platform.sha256 (workText identity.tenantId
          identity.documentVersionId input.artifactSha256 (platform.sha256 text)) ∧
        identity.requestSha256 = platform.sha256 (requestText identity.principalId
          identity.workSha256 (input.maxAttempts.getD defaultMaxAttempts)) := by
  simp only [buildIngestionJobIdentity, then_ok, orRefuse_ok, require_ok, return_ok] at h
  obtain ⟨_, htenant, _, hprincipal, _, hversion, _, hartifact, _, _, _, _, text, htext, rfl⟩ := h
  exact ⟨htenant, hprincipal, hversion, hartifact, text, htext, rfl, rfl⟩

theorem isWord_of_isSha256Hex {text : JsString} (h : isSha256Hex text = true) : IsWord text := by
  intro u hu
  rw [isSha256Hex, Bool.and_eq_true, List.all_eq_true] at h
  exact isWordUnit_of_isHexUnit (h.2 u hu)

/-- The same work: tenant, version, artifact and pipeline. -/
def SameWork (input other : EnqueueInput) : Prop :=
  SameUuid input.tenantId other.tenantId ∧
    SameUuid input.documentVersionId other.documentVersionId ∧
    input.artifactSha256 = other.artifactSha256 ∧ input.pipelineConfig = other.pipelineConfig

/-- The same request: the same work for the same principal, as often tried. -/
def SameRequest (input other : EnqueueInput) : Prop :=
  SameWork input other ∧ SameUuid input.principalId other.principalId ∧
    input.maxAttempts.getD defaultMaxAttempts = other.maxAttempts.getD defaultMaxAttempts

section Digests

variable {platform : Platform} (hinjective : Function.Injective platform.sha256)
  (hhex : ∀ text, ∀ u ∈ platform.sha256 text, isHexUnit u = true)

include hhex in
theorem isWord_sha256 (text : JsString) : IsWord (platform.sha256 text) :=
  fun u hu => isWordUnit_of_isHexUnit (hhex text u hu)

variable {input other : EnqueueInput} {identity identity' : JobIdentity}
  (hbuild : buildIngestionJobIdentity platform input = .ok identity)
  (hbuild' : buildIngestionJobIdentity platform other = .ok identity')

include hinjective hhex hbuild hbuild'

/-- **Equal work digests are equal works.** -/
theorem workSha256_iff : identity.workSha256 = identity'.workSha256 ↔ SameWork input other := by
  obtain ⟨htenant, -, hversion, hartifact, text, htext, hwork, -⟩ := build_parts hbuild
  obtain ⟨htenant', -, hversion', hartifact', text', htext', hwork', -⟩ := build_parts hbuild'
  rw [SameWork, sameUuid_iff htenant htenant', sameUuid_iff hversion hversion', hwork, hwork']
  constructor
  · intro hsame
    have htexts := hinjective hsame
    rw [workText_document (isWord_of_isSha256Hex hartifact) (isWord_sha256 hhex text),
      workText_document (isWord_of_isSha256Hex hartifact') (isWord_sha256 hhex text')] at htexts
    have hdocument := stringify_injective htexts
    simp only [workDocument, jsonDocument, List.map_cons, List.map_nil, Value.object.injEq,
      Value.string.injEq, List.cons.injEq, Prod.mk.injEq, true_and, and_true] at hdocument
    obtain ⟨htenants, hversions, hartifacts, hpipelines⟩ := hdocument
    obtain rfl := hinjective hpipelines
    exact ⟨uuidText_inj (uuidValue_lt htenant) (uuidValue_lt htenant') htenants,
      uuidText_inj (uuidValue_lt hversion) (uuidValue_lt hversion') hversions, hartifacts,
      canonicalPipelineConfig_inj htext htext'⟩
  · rintro ⟨htenants, hversions, hartifacts, hpipelines⟩
    rw [hpipelines, htext'] at htext
    obtain rfl := Except.ok.inj htext
    rw [htenants, hversions, hartifacts]

/-- **Equal request digests are equal requests.** -/
theorem requestSha256_iff :
    identity.requestSha256 = identity'.requestSha256 ↔ SameRequest input other := by
  have hworks := workSha256_iff hinjective hhex hbuild hbuild'
  obtain ⟨-, hprincipal, -, -, text, -, hwork, hrequest⟩ := build_parts hbuild
  obtain ⟨-, hprincipal', -, -, text', -, hwork', hrequest'⟩ := build_parts hbuild'
  have hword : IsWord identity.workSha256 := hwork ▸ isWord_sha256 hhex _
  have hword' : IsWord identity'.workSha256 := hwork' ▸ isWord_sha256 hhex _
  rw [SameRequest, ← hworks, sameUuid_iff hprincipal hprincipal', hrequest, hrequest']
  constructor
  · intro hsame
    have htexts := hinjective hsame
    rw [requestText_document hword, requestText_document hword'] at htexts
    have hdocument := stringify_injective htexts
    simp only [requestDocument, jsonDocument, List.map_cons, List.map_nil, Value.object.injEq,
      Value.string.injEq, Value.number.injEq, List.cons.injEq, Prod.mk.injEq, true_and,
      and_true] at hdocument
    obtain ⟨hprincipals, hworks, hattempts⟩ := hdocument
    exact ⟨hworks, uuidText_inj (uuidValue_lt hprincipal) (uuidValue_lt hprincipal') hprincipals,
      hattempts⟩
  · rintro ⟨hworks, hprincipals, hattempts⟩
    rw [hworks, hprincipals, hattempts]

end Digests

end Ingestion
