import MuniRag.Ingestion.JobIdentity
import MuniRag.Ingestion.System
import MuniRag.Lib.JsonParse

/-!
# Reading a stored pipeline configuration

`parsePipelineConfig` of `ingestionJobService.ts`, on what the driver gives for the
column: a text, or the value that it has parsed already.  The configuration it
builds holds whatever the members are; `canonicalPipelineConfig` is run on it as
the source runs it, on values of any kind.

**What was stored is read back** (`parsePipelineConfig_stored`), and with the two
laws of the digests that is the identity of a job (`jobIdentity_law`).
-/

namespace Ingestion

open Results Json

/-- Numbers of JSON among which the safe integers are known. -/
structure Numerals (ν : Type) extends NumberReader ν where
  /-- The value of a number that `Number.isSafeInteger` accepts. -/
  safeInteger : ν → Option Int
  ofInteger : Int → ν
  text_ofInteger : ∀ n : Int, n.natAbs ≤ 9007199254740991 → text (ofInteger n) = jsonNumber n
  safeInteger_ofInteger :
    ∀ n : Int, n.natAbs ≤ 9007199254740991 → safeInteger (ofInteger n) = some n

/-- The value of a column of JSON. -/
inductive Stored (ν : Type)
  | missing
  | text (text : JsString)
  | value (value : Value ν)

/-- A configuration as it is built from a stored value; a member that is not there
is `undefined`. -/
structure StoredConfig (ν : Type) where
  contractVersion : Option (Value ν)
  extractorName : Option (Value ν)
  extractorVersion : Option (Value ν)
  chunkPlannerName : Option (Value ν)
  maxChars : Option (Value ν)
  overlapChars : Option (Value ν)
  embeddingProvider : Option (Value ν)
  embeddingModel : Option (Value ν)
  embeddingDimension : Option (Value ν)

section Parsing

variable {ν : Type} (numerals : Numerals ν)

mutual

/-- `String(value)`. -/
def displayText : Value ν → JsString
  | .null => js "null"
  | .bool true => js "true"
  | .bool false => js "false"
  | .number n => numerals.text n
  | .string s => s
  | .array items => displayItems items
  | .object _ => js "[object Object]"

/-- `Array.prototype.join`, where `null` is empty. -/
def displayItems : List (Value ν) → JsString
  | [] => []
  | [.null] => []
  | [item] => displayText item
  | .null :: items => 0x2c :: displayItems items
  | item :: items => displayText item ++ 0x2c :: displayItems items

end

/-- `SAFE_COMPONENT_PATTERN.test` on a value of any kind. -/
def testComponent (value : Option (Value ν)) : Bool :=
  isComponent 127 ((value.map (displayText numerals)).getD (js "undefined"))

/-- `value === text`. -/
def isText (text : JsString) : Option (Value ν) → Bool
  | some (.string s) => s == text
  | _ => false

/-- The safe integer that a value is. -/
def safeIntegerOf : Option (Value ν) → Option Int
  | some (.number n) => numerals.safeInteger n
  | _ => none

/-- The checks of `canonicalPipelineConfig`, on values of any kind. -/
def checkStoredConfig (config : StoredConfig ν) : Except Refusal Unit := do
  require (isText (js "v1") config.contractVersion = true ∧
      isText (js "section_text_v1") config.chunkPlannerName = true)
    (jobError "ingestion_pipeline_config_invalid" "Unsupported ingestion pipeline contract.")
  require (∀ component ∈ [config.extractorName, config.extractorVersion, config.embeddingProvider,
      config.embeddingModel], testComponent numerals component = true)
    (jobError "ingestion_pipeline_config_invalid" "Pipeline component identifier is invalid.")
  let boundsInvalid := jobError "ingestion_pipeline_config_invalid"
    "Chunk planner bounds are invalid."
  let maxChars ← orRefuse (safeIntegerOf numerals config.maxChars) boundsInvalid
  let overlapChars ← orRefuse (safeIntegerOf numerals config.overlapChars) boundsInvalid
  require (32 ≤ maxChars ∧ maxChars ≤ 1000000 ∧ 0 ≤ overlapChars ∧ overlapChars ≤ maxChars / 2)
    boundsInvalid
  require (safeIntegerOf numerals config.embeddingDimension = some defaultVectorDimension)
    (jobError "ingestion_pipeline_config_invalid"
      "The current vector schema requires dimension 1536.")

/-- `typeof value === "object"`, of a value that is not null. -/
def isRecord : Value ν → Bool
  | .object _ => true
  | .array _ => true
  | _ => false

/-- The value that a column holds. -/
def storedValue : Stored ν → Option (Value ν)
  | .missing => none
  | .text text => parse numerals.toNumberReader text
  | .value value => some value

/-- The configuration of the members of a record. -/
def storedConfig (record : Value ν) : StoredConfig ν :=
  let extractor := record.member? (js "extractor")
  let planner := record.member? (js "chunk_planner")
  let embedding := record.member? (js "embedding")
  { contractVersion := record.member? (js "contract_version")
    extractorName := extractor.bind (Value.member? (js "name"))
    extractorVersion := extractor.bind (Value.member? (js "version"))
    chunkPlannerName := planner.bind (Value.member? (js "name"))
    maxChars := planner.bind (Value.member? (js "max_chars"))
    overlapChars := planner.bind (Value.member? (js "overlap_chars"))
    embeddingProvider := embedding.bind (Value.member? (js "provider"))
    embeddingModel := embedding.bind (Value.member? (js "model"))
    embeddingDimension := embedding.bind (Value.member? (js "dimension")) }

def parsePipelineConfig (stored : Stored ν) : Except Refusal (StoredConfig ν) :=
  let invalid := jobError "ingestion_persistence_invalid" "Stored pipeline config is invalid."
  match storedValue numerals stored with
  | none => .error invalid
  | some parsed =>
      if isRecord parsed then
        let config := storedConfig parsed
        match checkStoredConfig numerals config with
        | .ok _ => .ok config
        | .error _ => .error invalid
      else .error invalid

end Parsing

/-! ## Configurations with texts and integers -/

section Reading

variable {ν : Type} {numerals : Numerals ν}

/-- The configuration, with its texts and integers as values. -/
def PipelineConfig.stored (numerals : Numerals ν) (config : PipelineConfig) : StoredConfig ν where
  contractVersion := some (.string config.contractVersion)
  extractorName := some (.string config.extractorName)
  extractorVersion := some (.string config.extractorVersion)
  chunkPlannerName := some (.string config.chunkPlannerName)
  maxChars := some (.number (numerals.ofInteger config.maxChars))
  overlapChars := some (.number (numerals.ofInteger config.overlapChars))
  embeddingProvider := some (.string config.embeddingProvider)
  embeddingModel := some (.string config.embeddingModel)
  embeddingDimension := some (.number (numerals.ofInteger config.embeddingDimension))

/-- The integers of the configuration are safe. -/
def PipelineConfig.SafeIntegers (config : PipelineConfig) : Prop :=
  ∀ n ∈ [config.maxChars, config.overlapChars, config.embeddingDimension],
    n.natAbs ≤ 9007199254740991

/-- On texts and safe integers the checks are those of `canonicalPipelineConfig`. -/
theorem checkStoredConfig_stored {config : PipelineConfig} (hsafe : config.SafeIntegers) :
    checkStoredConfig numerals (config.stored numerals) =
      (canonicalPipelineConfig config).map fun _ => () := by
  simp only [PipelineConfig.SafeIntegers, List.forall_mem_cons] at hsafe
  obtain ⟨hmax, hoverlap, hdimension, -⟩ := hsafe
  have hgiven : ∀ (n : Int) (rest : Int → Except Refusal Unit),
      ((Except.ok n : Except Refusal Int) >>= rest) = rest n := fun _ _ => rfl
  unfold checkStoredConfig canonicalPipelineConfig
  simp only [PipelineConfig.stored, isText, beq_iff_eq, testComponent, Option.map_some,
    Option.getD_some, displayText, safeIntegerOf, numerals.safeInteger_ofInteger _ hmax,
    numerals.safeInteger_ofInteger _ hoverlap, numerals.safeInteger_ofInteger _ hdimension,
    Option.some.injEq, List.forall_mem_cons, List.not_mem_nil, false_imp_iff, implies_true,
    and_true, orRefuse, hgiven, require]
  split_ifs <;> rfl

/-- A configuration that passes the checks has safe integers. -/
theorem safeIntegers_of_ok {config : PipelineConfig} {text : JsString}
    (h : canonicalPipelineConfig config = .ok text) : config.SafeIntegers := by
  simp only [canonicalPipelineConfig, then_ok, require_ok, return_ok] at h
  obtain ⟨_, -, _, -, _, hbounds, _, hdimension, -⟩ := h
  have hvalue : config.embeddingDimension = 1536 := hdimension
  intro n hn
  simp only [List.mem_cons, List.not_mem_nil, or_false] at hn
  rcases hn with rfl | rfl | rfl
  all_goals omega

theorem isRecord_of_member? {record value : Value ν} {key : JsString}
    (h : record.member? key = some value) : isRecord record = true := by
  cases record with
  | object entries => rfl
  | null | bool | number | string | array => simp [Value.member?] at h

/-- The members of a record that includes the document of a configuration. -/
theorem storedConfig_includes {config : PipelineConfig} {record : Value ν}
    (hcontract : config.contractVersion = js "v1")
    (hplanner : config.chunkPlannerName = js "section_text_v1")
    (h : record.Includes (config.document numerals.ofInteger)) :
    isRecord record = true ∧ storedConfig record = config.stored numerals := by
  have hstring : ∀ {v : Value ν} {s : JsString}, v.Includes (.string s) → v = .string s := by
    intro v s hv
    simpa [Value.Includes] using hv
  have hnumber : ∀ {v : Value ν} {n : ν}, v.Includes (.number n) → v = .number n := by
    intro v n hv
    simpa [Value.Includes] using hv
  simp only [PipelineConfig.document, jsonDocument, List.map_cons, List.map_nil, Value.Includes,
    IncludesAll, and_true] at h
  obtain ⟨⟨_, hversion, rfl⟩, ⟨extractor, hextractor, ⟨_, hname, rfl⟩, ⟨_, hrelease, rfl⟩⟩,
    ⟨planner, hplan, ⟨_, hplannerName, rfl⟩, ⟨_, hmax, rfl⟩, ⟨_, hoverlap, rfl⟩⟩,
    ⟨embedding, hembedding, ⟨_, hprovider, rfl⟩, ⟨_, hmodel, rfl⟩, ⟨_, hdimension, rfl⟩⟩⟩ := h
  refine ⟨isRecord_of_member? hversion, ?_⟩
  simp only [storedConfig, hversion, hextractor, hplan, hembedding, Option.bind_some, hname,
    hrelease, hplannerName, hmax, hoverlap, hprovider, hmodel, hdimension, PipelineConfig.stored,
    hcontract, hplanner]

theorem document_includes (config : PipelineConfig) (number : Int → ν) :
    (config.document number).Includes (config.document number) := by
  simp only [PipelineConfig.document, jsonDocument, List.map_cons, List.map_nil, Value.Includes,
    IncludesAll, and_true]
  refine ⟨⟨_, rfl, rfl⟩, ⟨_, rfl, ⟨_, rfl, rfl⟩, ⟨_, rfl, rfl⟩⟩,
    ⟨_, rfl, ⟨_, rfl, rfl⟩, ⟨_, rfl, rfl⟩, ⟨_, rfl, rfl⟩⟩,
    ⟨_, rfl, ⟨_, rfl, rfl⟩, ⟨_, rfl, rfl⟩, ⟨_, rfl, rfl⟩⟩⟩

/-- **What was stored is read back**, in whatever order the members come. -/
theorem parsePipelineConfig_stored {config : PipelineConfig} {text : JsString}
    (h : canonicalPipelineConfig config = .ok text) {stored : Stored ν} {value : Value ν}
    (hvalue : storedValue numerals stored = some value)
    (hincludes : value.Includes (config.document numerals.ofInteger)) :
    parsePipelineConfig numerals stored = .ok (config.stored numerals) := by
  obtain ⟨-, hcontract, hplanner, -⟩ := canonicalPipelineConfig_ok h
  obtain ⟨hrecord, hconfig⟩ := storedConfig_includes hcontract hplanner hincludes
  have hcheck : checkStoredConfig numerals (config.stored numerals) = .ok () := by
    rw [checkStoredConfig_stored (safeIntegers_of_ok h), h]
    rfl
  simp only [parsePipelineConfig, hvalue, hrecord, hconfig, hcheck, if_true]

theorem storedValue_text {config : PipelineConfig} {text : JsString}
    (h : canonicalPipelineConfig config = .ok text) :
    storedValue numerals (.text text) = some (config.document numerals.ofInteger) := by
  obtain ⟨htext, -, -, hwords⟩ := canonicalPipelineConfig_ok h
  have hsafe := safeIntegers_of_ok h
  have hdocument := canonicalText_document numerals.toNumberText hwords
    fun n hn => numerals.text_ofInteger n (hsafe n hn)
  rw [storedValue, htext, hdocument]
  exact parse_stringify numerals.toNumberReader _

end Reading

/-! ## The identity of a job -/

/-- **The identity of a job and the round trip of its pipeline.**  With a digest that
has no collisions, accepted requests have equal request digests exactly when they
are the same request, and equal work digests exactly when they are the same work.  A
stored configuration that is a valid one is read back as that one, from its text and
from any value with the same members. -/
theorem jobIdentity_law {ν : Type} (platform : Platform) (numerals : Numerals ν)
    (hinjective : Function.Injective platform.sha256)
    (hhex : ∀ text, ∀ u ∈ platform.sha256 text, isHexUnit u = true) :
    (∀ input other identity identity',
      buildIngestionJobIdentity platform input = .ok identity →
      buildIngestionJobIdentity platform other = .ok identity' →
        (identity.requestSha256 = identity'.requestSha256 ↔ SameRequest input other) ∧
        (identity.workSha256 = identity'.workSha256 ↔ SameWork input other)) ∧
    ∀ config text, canonicalPipelineConfig config = .ok text →
      parsePipelineConfig numerals (.text text) = .ok (config.stored numerals) ∧
      ∀ stored value, storedValue numerals stored = some value →
        value.Includes (config.document numerals.ofInteger) →
        parsePipelineConfig numerals stored = .ok (config.stored numerals) := by
  constructor
  · intro input other identity identity' hbuild hbuild'
    exact ⟨requestSha256_iff hinjective hhex hbuild hbuild',
      workSha256_iff hinjective hhex hbuild hbuild'⟩
  · intro config text hconfig
    have hread : ∀ stored value, storedValue numerals stored = some value →
        value.Includes (config.document numerals.ofInteger) →
        parsePipelineConfig numerals stored = .ok (config.stored numerals) :=
      fun stored value hvalue hincludes => parsePipelineConfig_stored hconfig hvalue hincludes
    exact ⟨hread _ _ (storedValue_text hconfig) (document_includes config _), hread⟩

/-! ## Samples -/

/-- A text with each of its units as four hexadecimal digits. -/
def spell (text : JsString) : JsString := text.flatMap fun u => (unicodeEscape u).drop 2

theorem unicodeEscape_inj {u v : UInt16} {s t : JsString}
    (h : (unicodeEscape u).drop 2 ++ s = (unicodeEscape v).drop 2 ++ t) : u = v ∧ s = t := by
  have hread : parseString (unicodeEscape u ++ 0x22 :: s) =
      parseString (unicodeEscape v ++ 0x22 :: t) := by
    obtain ⟨hunits, hrest⟩ := List.append_inj h rfl
    have hwhole : unicodeEscape u = unicodeEscape v := by
      have hsplit : ∀ w : UInt16, unicodeEscape w = [0x5c, 0x75] ++ (unicodeEscape w).drop 2 :=
        fun _ => rfl
      rw [hsplit u, hsplit v, hunits]
    rw [hwhole, hrest]
  rw [parseString_escape, parseString_escape, parseUnit, parseUnit, parseString_close,
    parseString_close] at hread
  simpa using hread

theorem spell_injective : Function.Injective spell := by
  intro s t h
  induction s generalizing t with
  | nil =>
      cases t with
      | nil => rfl
      | cons v t => simp [spell, unicodeEscape] at h
  | cons u s ih =>
      cases t with
      | nil => simp [spell, unicodeEscape] at h
      | cons v t =>
          rw [spell, spell, List.flatMap_cons, List.flatMap_cons] at h
          obtain ⟨rfl, hrest⟩ := unicodeEscape_inj h
          rw [ih hrest]

theorem spell_length (text : JsString) : (spell text).length = 4 * text.length := by
  induction text with
  | nil => rfl
  | cons u text ih =>
      rw [spell, List.flatMap_cons, List.length_append, ← spell, ih, List.length_cons]
      simp [unicodeEscape]
      omega

theorem isHexUnit_spell {text : JsString} {u : UInt16} (h : u ∈ spell text) :
    isHexUnit u = true := by
  obtain ⟨v, -, hu⟩ := List.mem_flatMap.mp h
  have hv : v.toNat < 65536 := v.toNat_lt
  simp only [unicodeEscape, List.drop_succ_cons, List.drop_zero, List.mem_cons, List.not_mem_nil,
    or_false] at hu
  rcases hu with rfl | rfl | rfl | rfl
  all_goals exact isHexUnit_hexUnit (by omega)

/-- A marked text, written in hexadecimal digits only. -/
def spellMarked (digest : Sha256) : Sha256 :=
  if digest.head? = some 0x78 then 0x30 :: spell digest.tail else digest

/-- The sample platform, with hexadecimal digits in every digest. -/
def hexPlatform : Platform := { samplePlatform with sha256 := spellMarked ∘ samplePlatform.sha256 }

/-- A digest of the sample platform is marked, or one of the table. -/
theorem samplePlatform_digest (text : JsString) :
    samplePlatform.sha256 text = 0x78 :: text ∨
      ((samplePlatform.sha256 text).length = 64 ∧ (samplePlatform.sha256 text).head? ≠ some 0x78 ∧
        ∀ u ∈ samplePlatform.sha256 text, isHexUnit u = true) := by
  have htable : ∀ entry ∈ sampleDigests, entry.2.length = 64 ∧ entry.2.head? ≠ some 0x78 ∧
      ∀ u ∈ entry.2, isHexUnit u = true := by
    have hall : sampleDigests.all (fun entry => decide (entry.2.length = 64) &&
        decide (entry.2.head? ≠ some 0x78) && entry.2.all isHexUnit) = true := by decide +kernel
    intro entry hentry
    have hone := List.all_eq_true.mp hall entry hentry
    simpa only [Bool.and_eq_true, List.all_eq_true, decide_eq_true_eq, and_assoc] using hone
  change digestFrom sampleDigests text = _ ∨ ((digestFrom sampleDigests text).length = _ ∧
    (digestFrom sampleDigests text).head? ≠ _ ∧ ∀ u ∈ digestFrom sampleDigests text, _)
  unfold digestFrom
  cases hfind : sampleDigests.find? (·.1 = text) with
  | none => exact .inl rfl
  | some entry => exact .inr (htable entry (List.mem_of_find?_eq_some hfind))

theorem hexPlatform_injective : Function.Injective hexPlatform.sha256 := by
  intro text other h
  change spellMarked (samplePlatform.sha256 text) = spellMarked (samplePlatform.sha256 other) at h
  have hmarked : ∀ t : JsString, spellMarked (0x78 :: t) = 0x30 :: spell t := fun _ => rfl
  have hplain : ∀ d : Sha256, d.head? ≠ some 0x78 → spellMarked d = d := fun d hd => if_neg hd
  apply samplePlatform_injective
  rcases samplePlatform_digest text with hd | ⟨hlength, hhead, -⟩ <;>
    rcases samplePlatform_digest other with hd' | ⟨hlength', hhead', -⟩
  · rw [hd, hd', hmarked, hmarked] at h
    rw [hd, hd', spell_injective (List.cons.inj h).2]
  · rw [hd, hmarked, hplain _ hhead'] at h
    have hlengths := congrArg List.length h
    rw [List.length_cons, spell_length, hlength'] at hlengths
    omega
  · rw [hd', hmarked, hplain _ hhead] at h
    have hlengths := congrArg List.length h
    rw [List.length_cons, spell_length, hlength] at hlengths
    omega
  · rwa [hplain _ hhead, hplain _ hhead'] at h

theorem hexPlatform_hex (text : JsString) : ∀ u ∈ hexPlatform.sha256 text, isHexUnit u = true := by
  change ∀ u ∈ spellMarked (samplePlatform.sha256 text), isHexUnit u = true
  rcases samplePlatform_digest text with hd | ⟨-, hhead, hunits⟩
  · rw [hd]
    intro u hu
    rcases List.mem_cons.mp hu with rfl | hu
    · rfl
    · exact isHexUnit_spell hu
  · rw [spellMarked, if_neg hhead]
    exact hunits

/-- Decimal digits after an optional sign. -/
def decodeInteger (text : JsString) : Int :=
  let digits := (text.filter isDecimalDigit).map fun u => Char.ofNat u.toNat
  let n : Int := Nat.ofDigitChars 10 digits 0
  if text.head? = some 0x2d then -n else n

/-- A decimal digit is one unit that is read back. -/
theorem utf16_digit {c : Char} (hc : c.isDigit = true) :
    ∃ u, utf16 c = [u] ∧ isDecimalDigit u = true ∧ Char.ofNat u.toNat = c := by
  rw [Char.isDigit, Bool.and_eq_true, decide_eq_true_eq, decide_eq_true_eq] at hc
  have hlow : 48 ≤ c.toNat := UInt32.le_iff_toNat_le.mp hc.1
  have hhigh : c.toNat ≤ 57 := UInt32.le_iff_toNat_le.mp hc.2
  have hsmall : c.toNat < 0x10000 := by omega
  have hvalue : c.toNat.toUInt16.toNat = c.toNat := by
    rw [Nat.toUInt16_eq, UInt16.toNat_ofNat', Nat.mod_eq_of_lt hsmall]
  refine ⟨c.toNat.toUInt16, by rw [utf16, if_pos hsmall], ?_, by rw [hvalue, Char.ofNat_toNat]⟩
  simp only [isDecimalDigit, Bool.and_eq_true, decide_eq_true_eq, UInt16.le_iff_toNat_le, hvalue,
    UInt16.reduceToNat]
  exact ⟨hlow, hhigh⟩

theorem digits_read {chars : List Char} (h : ∀ c ∈ chars, c.isDigit = true) :
    ((chars.flatMap utf16).filter isDecimalDigit).map (fun u => Char.ofNat u.toNat) = chars := by
  induction chars with
  | nil => rfl
  | cons c chars ih =>
      obtain ⟨hc, hrest⟩ := List.forall_mem_cons.mp h
      obtain ⟨u, hunits, hdigit, hread⟩ := utf16_digit hc
      rw [List.flatMap_cons, hunits, List.singleton_append, List.filter_cons, if_pos hdigit,
        List.map_cons, hread, ih hrest]

theorem decodeInteger_number (n : Int) : decodeInteger (jsonNumber n) = n := by
  have hchars : ∀ (m : Nat), ∀ c ∈ Nat.toDigits 10 m, c.isDigit = true := fun _ _ hc =>
    Nat.isDigit_of_mem_toDigits (by decide) (by decide) hc
  have hunits : ∀ m : Nat, js m.repr = (Nat.toDigits 10 m).flatMap utf16 := by
    intro m
    rw [js, Nat.toList_repr]
  cases n with
  | ofNat m =>
      have htext : jsonNumber (Int.ofNat m) = (Nat.toDigits 10 m).flatMap utf16 := hunits m
      have hplus : ((Nat.toDigits 10 m).flatMap utf16).head? ≠ some 0x2d := by
        intro hhead
        obtain ⟨c, hc, hunit⟩ := List.mem_flatMap.mp (List.mem_of_mem_head? hhead)
        obtain ⟨u, hu, hdigit, -⟩ := utf16_digit (hchars m c hc)
        rw [hu, List.mem_singleton] at hunit
        rw [← hunit] at hdigit
        cases hdigit
      rw [htext, decodeInteger, if_neg hplus, digits_read (hchars m),
        Nat.ofDigitChars_ten_toDigits]
      rfl
  | negSucc m =>
      have htext : jsonNumber (Int.negSucc m) =
          0x2d :: (Nat.toDigits 10 (m + 1)).flatMap utf16 := by
        change js ("-" ++ (m + 1).repr) = _
        rw [js, String.toList_append, List.flatMap_append, Nat.toList_repr]
        rfl
      have hminus : (0x2d :: (Nat.toDigits 10 (m + 1)).flatMap utf16).head? = some 0x2d := rfl
      rw [htext, decodeInteger, if_pos hminus, List.filter_cons, if_neg (by decide),
        digits_read (hchars (m + 1)), Nat.ofDigitChars_ten_toDigits]
      rfl

/-- Integers only, in the one form in which they are printed. -/
def sampleNumerals : Numerals Int where
  toNumberText := integerText
  read text := if jsonNumber (decodeInteger text) = text then some (decodeInteger text) else none
  read_text n := by
    change (if jsonNumber (decodeInteger (jsonNumber n)) = jsonNumber n then
      some (decodeInteger (jsonNumber n)) else none) = some n
    rw [decodeInteger_number, if_pos rfl]
  safeInteger n := if n.natAbs ≤ 9007199254740991 then some n else none
  ofInteger := id
  text_ofInteger _ _ := rfl
  safeInteger_ofInteger n hn := if_pos hn

/-- The sample request with its number of attempts spelled out. -/
def sampleAttempts (maxAttempts : Option Int) : EnqueueInput :=
  { sampleEnqueue "1.0.0" "clave-aaaa" with maxAttempts }

theorem sampleAttempts_accepted (maxAttempts : Option Int)
    (hok : (buildIngestionJobIdentity hexPlatform (sampleAttempts maxAttempts)).toBool = true) :
    ∃ identity, buildIngestionJobIdentity hexPlatform (sampleAttempts maxAttempts) =
      .ok identity := by
  cases hbuild : buildIngestionJobIdentity hexPlatform (sampleAttempts maxAttempts) with
  | ok identity => exact ⟨identity, rfl⟩
  | error refusal =>
      rw [hbuild] at hok
      cases hok

/-- Requests with an omitted and with the default number of attempts have one digest. -/
theorem attempts_merged :
    Function.Injective hexPlatform.sha256 ∧ ¬ ∀ input other identity identity',
      buildIngestionJobIdentity hexPlatform input = .ok identity →
      buildIngestionJobIdentity hexPlatform other = .ok identity' →
        (identity.requestSha256 = identity'.requestSha256 ↔
          SameWork input other ∧ SameUuid input.principalId other.principalId ∧
            input.maxAttempts = other.maxAttempts) := by
  refine ⟨hexPlatform_injective, fun hclaim => ?_⟩
  have haccepted := sampleAttempts_accepted none (by decide +kernel)
  obtain ⟨identity, hbuild⟩ := haccepted
  have hbuild' : buildIngestionJobIdentity hexPlatform (sampleAttempts (some 3)) =
      .ok identity := hbuild
  have hsame := (hclaim _ _ _ _ hbuild hbuild').mp rfl
  exact nomatch hsame.2.2

/-- The law for the sample digests, on requests with an omitted number of attempts and
with three. -/
theorem jobIdentity_sample :
    ∃ identity, buildIngestionJobIdentity hexPlatform (sampleAttempts none) = .ok identity ∧
      buildIngestionJobIdentity hexPlatform (sampleAttempts (some 3)) = .ok identity ∧
      (identity.requestSha256 = identity.requestSha256 ↔
        SameRequest (sampleAttempts none) (sampleAttempts (some 3))) ∧
      parsePipelineConfig sampleNumerals (.text (sampleConfig "1.0.0").canonicalText) =
        .ok ((sampleConfig "1.0.0").stored sampleNumerals) := by
  obtain ⟨identity, hbuild⟩ := sampleAttempts_accepted none (by decide +kernel)
  have hbuild' : buildIngestionJobIdentity hexPlatform (sampleAttempts (some 3)) =
      .ok identity := hbuild
  have hlaw := jobIdentity_law hexPlatform sampleNumerals hexPlatform_injective hexPlatform_hex
  obtain ⟨-, -, -, -, text, htext, -, -⟩ := build_parts hbuild
  have hsame : text = (sampleConfig "1.0.0").canonicalText := (canonicalPipelineConfig_ok htext).1
  have hconfig : canonicalPipelineConfig (sampleConfig "1.0.0") = .ok text := htext
  rw [hsame] at hconfig
  exact ⟨identity, hbuild, hbuild', (hlaw.1 _ _ _ _ hbuild hbuild').1, (hlaw.2 _ _ hconfig).1⟩

end Ingestion
