import MuniRag.Library.Settling

/-!
# What an examination finds

An examination gets as far as the scanner or not (`examination_scannable`,
`examination_unscannable`).  What it finds of a rejected artifact goes into evidence that the
inventory must take: `valid_rejectedRecord_iff` says when it does, by the record, the bytes and the
answer of the scanner.
-/

namespace DocumentLibrary

open Api FileSystem PosixPath Fallible
open Ingestion (MalwareScanResult)

section Examine

variable {setting : Setting} {scanner : Option Scanner} {input : InspectInput} {managed : Managed}
  {content : List UInt8} {findings : Findings} {settled : Settlement} {structural : Structural}

/-! ## The structural inspection -/

/-- The codes of the safety checks of an artifact. -/
def safetyCodes : List JsString := [
  js "artifact_empty",
  js "artifact_size_exceeded",
  js "artifact_extension_unsupported",
  js "artifact_media_type_missing",
  js "artifact_declared_media_type_mismatch",
  js "artifact_signature_unrecognized",
  js "artifact_signature_mismatch",
  js "artifact_acquisition_size_mismatch",
  js "artifact_acquisition_hash_mismatch"]

theorem isFailureCode_safetyCodes : ∀ code ∈ safetyCodes, isFailureCode code = true := by
  decide +kernel

theorem assertArtifactByteLength_error {size limit : Nat} {e : Thrown}
    (h : assertArtifactByteLength size limit = .error e) :
    ∃ code ∈ safetyCodes, ∃ message, e = .safety code message := by
  unfold assertArtifactByteLength at h
  split_ifs at h
  · cases h
    exact ⟨_, by simp [safetyCodes], _, rfl⟩
  · cases h
    exact ⟨_, by simp [safetyCodes], _, rfl⟩

theorem inspectArtifactContent_error {path declared : JsString} {e : Thrown}
    (h : inspectArtifactContent setting content path declared = .error e) :
    ∃ code ∈ safetyCodes, ∃ message, e = .safety code message := by
  unfold inspectArtifactContent at h
  cases hlength : assertArtifactByteLength content.length setting.policy.maxArtifactBytes with
  | error e' =>
      rw [hlength] at h
      cases h
      exact assertArtifactByteLength_error hlength
  | ok done =>
      rw [hlength] at h
      simp only [bind, Except.bind] at h
      split at h
      · cases h
        exact ⟨_, by simp [safetyCodes], _, rfl⟩
      · split_ifs at h
        · cases h
          exact ⟨_, by simp [safetyCodes], _, rfl⟩
        · cases h
          exact ⟨_, by simp [safetyCodes], _, rfl⟩
        · split at h
          · cases h
            exact ⟨_, by simp [safetyCodes], _, rfl⟩
          · split_ifs at h
            · cases h
              exact ⟨_, by simp [safetyCodes], _, rfl⟩
            · cases h

/-- What an inspection of the bytes says can be shown. -/
theorem inspectArtifactContent_shown {path declared : JsString}
    (h : inspectArtifactContent setting content path declared = .ok structural) :
    isShown structural.declaredMediaType = true ∧ isShown structural.detectedMediaType = true ∧
      isShown structural.signature = true := by
  have htypes : ∀ type ∈ Ingestion.mediaTypeByExtension, isShown type.2 = true := by
    decide +kernel
  have hknown : ∀ known ∈ Ingestion.structurals, isShown known.signature = true := by
    decide +kernel
  unfold inspectArtifactContent at h
  cases hlength : assertArtifactByteLength content.length setting.policy.maxArtifactBytes with
  | error e =>
      rw [hlength] at h
      cases h
  | ok done =>
      rw [hlength] at h
      simp only [bind, Except.bind] at h
      split at h
      · cases h
      · rename_i expected hexpected
        obtain ⟨before, after, hentries, -⟩ := List.lookup_eq_some_iff.mp hexpected
        have hshown : isShown expected = true :=
          htypes (setting.probe.extension path, expected)
            (hentries ▸ List.mem_append_right _ List.mem_cons_self)
        split_ifs at h with hmissing hdeclared
        split at h
        · cases h
        · rename_i detected hdetected
          split_ifs at h with hmismatch
          cases h
          rw [not_not] at hdeclared hmismatch
          exact ⟨hdeclared ▸ hshown, hmismatch ▸ hshown, hknown _ (Ingestion.detect_known hdetected)⟩

/-! ## Up to the scanner -/

/-- The artifact is the one that was acquired, and its bytes pass the structural inspection. -/
structure Scannable (setting : Setting) (managed : Managed) (content : List UInt8)
    (structural : Structural) : Prop where
  size : 0 < content.length ∧ content.length ≤ setting.policy.maxArtifactBytes
  length : managed.acquisition.byteLength.all (· = (content.length : ℚ)) = true
  digest : setting.digest content = managed.acquisition.contentSha256
  structural : inspectArtifactContent setting content managed.acquisition.artifactPath
    managed.mediaType = .ok structural

theorem sizeCodes_eq (size : Nat) : ∃ codes,
    sizeCodes setting managed size = .ok codes ∧
      (∀ code ∈ codes, code ∈ safetyCodes) ∧ codes.length ≤ 2 ∧
      (codes = [] ↔ (0 < size ∧ size ≤ setting.policy.maxArtifactBytes) ∧
        managed.acquisition.byteLength.all (· = (size : ℚ)) = true) := by
  have hmismatch : ∀ option : Option ℚ, option.any (· ≠ (size : ℚ)) = true ↔
      ¬ option.all (· = (size : ℚ)) = true := by
    intro option
    cases option <;> simp
  unfold sizeCodes assertArtifactByteLength
  by_cases hempty : size = 0
  · rw [if_pos hempty]
    refine ⟨_, rfl, ?_⟩
    split_ifs <;> simp [safetyCodes, hempty]
  · rw [if_neg hempty]
    by_cases hlarge : setting.policy.maxArtifactBytes < size
    · rw [if_pos hlarge]
      refine ⟨_, rfl, ?_⟩
      split_ifs <;> simp [safetyCodes, hlarge]
    · rw [if_neg hlarge]
      refine ⟨_, rfl, ?_⟩
      have hpos : 0 < size := by omega
      have hle : size ≤ setting.policy.maxArtifactBytes := by omega
      simp only [List.nil_append]
      split_ifs with hsize
      · have hno := (hmismatch _).mp hsize
        simp [safetyCodes, hno]
      · rw [hmismatch, not_not] at hsize
        simp [hpos, hle, hsize]

theorem examination_scannable (h : Scannable setting managed content structural) :
    examination setting scanner managed content = .ok ⟨content.length, some content,
      some (setting.digest content), some structural,
      some (scanArtifact scanner content managed.path).2,
      (scanArtifact scanner content managed.path).1⟩ := by
  obtain ⟨codes, hcodes, -, -, hnone⟩ := @sizeCodes_eq setting managed content.length
  obtain rfl := hnone.mpr ⟨h.size, h.length⟩
  have hbytes : inspectBytes setting scanner managed content [] =
      .ok ((scanArtifact scanner content managed.path).1, some structural,
        some (scanArtifact scanner content managed.path).2) := by
    unfold inspectBytes
    rw [h.structural]
    rfl
  unfold examination
  rw [hcodes]
  simp only [bind, Except.bind, if_pos h.size, h.digest, ne_eq, not_true, if_false,
    List.append_nil, hbytes]
  rfl

/-- An artifact that is not scanned is rejected for what was found before. -/
theorem examination_unscannable (h : ∀ structural, ¬ Scannable setting managed content structural) :
    ∃ content' observed codes, examination setting scanner managed content =
        .ok ⟨content.length, content', observed, none, none, codes⟩ ∧
      (content' = none ∨ content' = some content) ∧
      (observed = none ∨ observed = some (setting.digest content)) ∧
      codes ≠ [] ∧ (∀ code ∈ codes, code ∈ safetyCodes) ∧ codes.length ≤ 3 := by
  obtain ⟨codes, hcodes, hknown, hfew, hnone⟩ := @sizeCodes_eq setting managed content.length
  unfold examination
  rw [hcodes]
  simp only [bind, Except.bind]
  by_cases hsize : 0 < content.length ∧ content.length ≤ setting.policy.maxArtifactBytes
  · rw [if_pos hsize]
    generalize hall : codes ++ (if setting.digest content ≠ managed.acquisition.contentSha256 then
      [js "artifact_acquisition_hash_mismatch"] else []) = all
    have hmembers : (∀ code ∈ all, code ∈ safetyCodes) ∧ all.length ≤ 3 := by
      rw [← hall]
      constructor
      · intro code hcode
        rcases List.mem_append.mp hcode with hcode | hcode
        · exact hknown code hcode
        · split_ifs at hcode
          · rw [List.mem_singleton.mp hcode]
            simp [safetyCodes]
          · simp at hcode
      · rw [List.length_append]
        split_ifs
        · simp only [List.length_singleton]
          omega
        · simp only [List.length_nil]
          omega
    unfold inspectBytes
    by_cases hall' : all = []
    · rw [if_neg (not_not_intro hall')]
      rw [hall'] at hall
      obtain ⟨hfirst, hsecond⟩ := List.append_eq_nil_iff.mp hall
      have hdigest : setting.digest content = managed.acquisition.contentSha256 := by
        by_contra hne
        rw [if_pos hne] at hsecond
        cases hsecond
      cases hstructural : inspectArtifactContent setting content managed.acquisition.artifactPath
          managed.mediaType with
      | ok structural =>
          exact absurd ⟨hsize, (hnone.mp hfirst).2, hdigest, hstructural⟩ (h structural)
      | error e =>
          obtain ⟨code, hcode, message, rfl⟩ := inspectArtifactContent_error hstructural
          refine ⟨_, _, [code], rfl, .inr rfl, .inr rfl, by simp, ?_, by simp⟩
          intro other hother
          rwa [List.mem_singleton.mp hother]
    · rw [if_pos hall']
      exact ⟨_, _, all, rfl, .inr rfl, .inr rfl, hall', hmembers⟩
  · rw [if_neg hsize]
    refine ⟨_, _, codes, rfl, .inl rfl, .inl rfl, fun hempty => ?_, hknown, by omega⟩
    exact hsize (hnone.mp hempty).1

/-! ## Evidence of a rejection -/

/-- What a scanner answered can be recorded. -/
def AnswerShown : Except Thrown MalwareScanResult → Prop
  | .ok scan => isShown scan.engine = true ∧ isShown scan.engineVersion = true ∧
      (∀ version, scan.definitionsVersion = some version → version = [] ∨ isShown version = true) ∧
      (∀ signature, scan.signature = some signature →
        signature = [] ∨ isShown signature = true) ∧
      ∀ code, scan.failureCode = some code → isFailureCode code = true
  | .error (.safety code _) => isFailureCode code = true
  | .error _ => True

/-- The inventory takes the evidence of the rejected artifact. -/
structure Recordable (setting : Setting) (scanner : Option Scanner) (input : InspectInput)
    (managed : Managed) (content : List UInt8) (target : Option Path) : Prop where
  time : (setting.texts.parseDate (setting.now 0)).isSome = true
  digest : isContentSha256 managed.acquisition.contentSha256 = true
  byteLength : isSafeInteger (managed.acquisition.byteLength.getD content.length) = true ∧
    0 < managed.acquisition.byteLength.getD (content.length : ℚ)
  observed : isSafeInteger content.length = true
  mediaType : (∀ structural, ¬ Scannable setting managed content structural) →
    isShown (plainMediaType setting.texts managed.mediaType) = true
  answer : ∀ structural answer, Scannable setting managed content structural →
    scanner = some answer → AnswerShown (answer content managed.path)
  original : ∀ path, originalPath managed = some path → path = [] ∨ isShown path = true
  place : isShown (manifestArtifactPath setting input.quarantineRoot
    (target.getD managed.path)) = true

theorem all_filter_iff {value : Option JsString} {p : JsString → Bool} :
    (value.filter (· ≠ [])).all p = true ↔ ∀ text, value = some text → text = [] ∨ p text = true := by
  cases value with
  | none => simp
  | some text =>
      by_cases hempty : text = []
      · simp [hempty]
      · simp [Option.filter, hempty]

theorem isContentSha256_digest (content : List UInt8) :
    isContentSha256 (setting.digest content) = true := by
  have h := setting.hexadecimal content
  simp only [Ingestion.isSha256Hex, Bool.and_eq_true, decide_eq_true_eq, List.all_eq_true] at h
  simp only [isContentSha256, Bool.and_eq_true, beq_iff_eq, List.all_eq_true]
  refine ⟨h.1, fun u hu => ?_⟩
  have hdigit := h.2 u hu
  simp only [isDecimalDigit, Bool.or_eq_true, Bool.and_eq_true, decide_eq_true_eq] at hdigit
  unfold isHexDigit hexDigit
  rcases hdigit with hdigit | hdigit
  · simp [hdigit]
  · split_ifs <;> simp_all

/-- The fields of the evidence of a rejection. -/
theorem shape_rejected {quarantinePath : JsString} {original : Option JsString}
    (hobserved : findings.observed.all isContentSha256 = true)
    (hcontent : (findings.content.map List.length).getD findings.size = findings.size)
    (hstructural : ∀ structural, findings.structural = some structural →
      isShown structural.declaredMediaType = true ∧ isShown structural.detectedMediaType = true ∧
        isShown structural.signature = true) :
    hasArtifactSafetyShape setting.texts (rejectedSafetyEvidence setting managed findings
      (setting.now 0) quarantinePath original) = true ↔
    (setting.texts.parseDate (setting.now 0)).isSome = true ∧
      isContentSha256 managed.acquisition.contentSha256 = true ∧
      (isSafeInteger (managed.acquisition.byteLength.getD findings.size) = true ∧
        0 < managed.acquisition.byteLength.getD (findings.size : ℚ)) ∧
      isSafeInteger findings.size = true ∧
      (findings.structural = none →
        isShown (plainMediaType setting.texts managed.mediaType) = true) ∧
      (∀ scan, findings.scan = some scan → isShown scan.engine = true ∧
        isShown scan.engineVersion = true ∧
        (∀ version, scan.definitionsVersion = some version →
          version = [] ∨ isShown version = true) ∧
        (∀ signature, scan.signature = some signature →
          signature = [] ∨ isShown signature = true)) ∧
      (findings.failureCodes.length ≤ 16 ∧
        ∀ code ∈ findings.failureCodes, isFailureCode code = true) ∧
      (∀ path, original = some path → path = [] ∨ isShown path = true) ∧
      isShown quarantinePath = true := by
  obtain ⟨size, content, observed, structural, scan, codes⟩ := findings
  have hdigests : (observed.filter (· ≠ [])).all isContentSha256 = true := by
    refine all_filter_iff.mpr fun text htext => .inr ?_
    rw [htext] at hobserved
    exact hobserved
  have hfixed : isShown (js "not_run") = true ∧ isShown (js "not_available") = true := by
    decide +kernel
  have hnonneg : (0 : ℚ) ≤ (size : ℚ) := Nat.cast_nonneg size
  simp only at hcontent hstructural hobserved
  simp only [hasArtifactSafetyShape, rejectedSafetyEvidence, Bool.and_eq_true, decide_eq_true_eq,
    hcontent, hdigests, hnonneg, all_filter_iff]
  cases structural with
  | none =>
      cases scan with
      | none =>
          simp only [and_true, Option.map_none, Option.getD_none, Option.all_none, hfixed,
            Option.bind_none, reduceCtorEq, IsEmpty.forall_iff, implies_true, List.all_eq_true,
            Option.some.injEq, forall_eq', forall_const, true_and]
          tauto
      | some scan =>
          simp only [and_true, Option.map_none, Option.getD_none, Option.all_none, Option.map_some,
            Option.getD_some, Option.bind_some, List.all_eq_true, Option.some.injEq, forall_eq',
            forall_const]
          tauto
  | some structural =>
      obtain ⟨hdeclared, hdetected, hsignature⟩ := hstructural structural rfl
      cases scan with
      | none =>
          simp only [and_true, Option.map_some, Option.getD_some, hdeclared, Option.all_some,
            hdetected, hsignature, Option.map_none, Option.getD_none, hfixed, Option.bind_none,
            reduceCtorEq, IsEmpty.forall_iff, implies_true, List.all_eq_true, Option.some.injEq,
            forall_eq', true_and]
          tauto
      | some scan =>
          simp only [and_true, Option.map_some, Option.getD_some, hdeclared, Option.all_some,
            hdetected, hsignature, Option.bind_some, List.all_eq_true, Option.some.injEq,
            forall_eq', reduceCtorEq, IsEmpty.forall_iff, true_and]
          tauto

/-- The scan of a scanner that throws. -/
def brokenScan : MalwareScanResult :=
  ⟨.error, js "scanner_adapter", js "unavailable", none, none, some (js "malware_scan_error")⟩

def thrownCodes : Thrown → List JsString
  | .safety code _ => [code]
  | _ => []

theorem scanArtifact_ok {answer : Scanner} {path : Path} {scan : MalwareScanResult}
    (h : answer content path = .ok scan) :
    scanArtifact (some answer) content path = (scanCodes scan, scan) := by
  unfold scanArtifact
  simp only [h]

theorem scanArtifact_error {answer : Scanner} {path : Path} {e : Thrown}
    (h : answer content path = .error e) : scanArtifact (some answer) content path =
      (thrownCodes e ++ [js "malware_scan_error"], brokenScan) := by
  unfold scanArtifact
  simp only [h]
  cases e <;> rfl

/-- What a scanner that rejects says can be shown exactly where its answer can be recorded. -/
theorem scanArtifact_shown_iff {path : Path} (hcodes : (scanArtifact scanner content path).1 ≠ []) :
    ((∀ scan, some (scanArtifact scanner content path).2 = some scan →
        isShown scan.engine = true ∧ isShown scan.engineVersion = true ∧
        (∀ version, scan.definitionsVersion = some version →
          version = [] ∨ isShown version = true) ∧
        (∀ signature, scan.signature = some signature →
          signature = [] ∨ isShown signature = true)) ∧
      (scanArtifact scanner content path).1.length ≤ 16 ∧
        ∀ code ∈ (scanArtifact scanner content path).1, isFailureCode code = true) ↔
    ∀ answer, scanner = some answer → AnswerShown (answer content path) := by
  have hfixed : isShown (js "not_configured") = true ∧ isShown (js "not_available") = true ∧
      isShown (js "scanner_adapter") = true ∧ isShown (js "unavailable") = true ∧
      isFailureCode (js "malware_scanner_unconfigured") = true ∧
      isFailureCode (js "malware_scan_error") = true := by
    decide +kernel
  obtain ⟨hunset, hmissing, hadapter, hunavailable, hunconfigured, herror⟩ := hfixed
  cases scanner with
  | none =>
      refine iff_of_true ⟨fun scan hscan => ?_, ?_⟩ fun answer hanswer => by cases hanswer
      · cases hscan
        simp [scanArtifact, hunset, hmissing]
      · simp [scanArtifact, scanCodes, hunconfigured]
  | some answer =>
      have hall : (∀ other, some answer = some other → AnswerShown (other content path)) ↔
          AnswerShown (answer content path) := by
        simp
      rw [hall]
      cases hanswer : answer content path with
      | ok scan =>
          rw [scanArtifact_ok hanswer] at hcodes ⊢
          have hverdict : scan.verdict ≠ .clean := fun h => hcodes (if_pos h)
          have hcode : isFailureCode (scan.failureCode.getD (js "malware_scan_error")) = true ↔
              ∀ code, scan.failureCode = some code → isFailureCode code = true := by
            cases scan.failureCode <;> simp [herror]
          simp only [scanCodes, if_neg hverdict, AnswerShown, Option.some.injEq, forall_eq',
            List.length_singleton, List.mem_singleton, forall_eq, hcode, Nat.one_le_ofNat, true_and]
          tauto
      | error e =>
          rw [scanArtifact_error hanswer]
          cases e with
          | safety code message =>
              simp [thrownCodes, AnswerShown, brokenScan, herror, hadapter, hunavailable]
          | ingestion code message =>
              simp [thrownCodes, AnswerShown, brokenScan, herror, hadapter, hunavailable]
          | system errno =>
              simp [thrownCodes, AnswerShown, brokenScan, herror, hadapter, hunavailable]
          | plain message =>
              simp [thrownCodes, AnswerShown, brokenScan, herror, hadapter, hunavailable]

/-- **Evidence of a rejection** has the shape that the inventory wants exactly where it can be
recorded. -/
theorem shape_rejected_iff (hexamined : examination setting scanner managed content = .ok findings)
    (hcodes : findings.failureCodes ≠ []) {target : Option Path} :
    hasArtifactSafetyShape setting.texts (rejectedSafetyEvidence setting managed findings
      (setting.now 0)
      (manifestArtifactPath setting input.quarantineRoot (target.getD managed.path))
      (originalPath managed)) = true ↔
    Recordable setting scanner input managed content target := by
  by_cases hscannable : ∃ structural, Scannable setting managed content structural
  · obtain ⟨structural, hscannable⟩ := hscannable
    rw [examination_scannable hscannable] at hexamined
    obtain rfl := Except.ok.inj hexamined
    have hanswers := scanArtifact_shown_iff hcodes
    have hdigest : (some (setting.digest content)).all isContentSha256 = true :=
      isContentSha256_digest content
    have hshown : ∀ other, some structural = some other →
        isShown other.declaredMediaType = true ∧ isShown other.detectedMediaType = true ∧
          isShown other.signature = true := by
      rintro other ⟨⟩
      exact inspectArtifactContent_shown hscannable.structural
    rw [shape_rejected hdigest rfl hshown]
    constructor
    · rintro ⟨htime, hdigest, hlength, hsize, -, hscan, hcodes, horiginal, hplace⟩
      exact ⟨htime, hdigest, hlength, hsize, fun hno => absurd hscannable (hno structural),
        fun _ answer _ => hanswers.mp ⟨hscan, hcodes⟩ answer, horiginal, hplace⟩
    · intro h
      obtain ⟨hscan, hcodes⟩ := hanswers.mpr fun answer => h.answer structural answer hscannable
      exact ⟨h.time, h.digest, h.byteLength, h.observed, (fun hnone => by cases hnone), hscan, hcodes,
        h.original, h.place⟩
  · have hno : ∀ structural, ¬ Scannable setting managed content structural :=
      fun structural h => hscannable ⟨structural, h⟩
    obtain ⟨content', observed, codes, hfound, hcontent, hobserved, -, hknown, hfew⟩ :=
      @examination_unscannable setting scanner managed content hno
    rw [hfound] at hexamined
    obtain rfl := Except.ok.inj hexamined
    have hdigest : observed.all isContentSha256 = true := by
      rcases hobserved with rfl | rfl
      · rfl
      · exact isContentSha256_digest content
    have hlength : (content'.map List.length).getD content.length = content.length := by
      rcases hcontent with rfl | rfl <;> rfl
    rw [shape_rejected hdigest hlength fun other hother => by cases hother]
    constructor
    · rintro ⟨htime, hdigest, hlength, hsize, htype, -, -, horiginal, hplace⟩
      exact ⟨htime, hdigest, hlength, hsize, fun _ => htype rfl,
        fun structural _ hscannable => absurd hscannable (hno structural), horiginal, hplace⟩
    · intro h
      refine ⟨h.time, h.digest, h.byteLength, h.observed, fun _ => h.mediaType hno,
        (fun scan hscan => by cases hscan), ⟨hfew.trans (by decide), fun code hcode => ?_⟩,
        h.original, h.place⟩
      exact isFailureCode_safetyCodes code (hknown code hcode)

/-- The record of a rejected artifact is valid exactly where its evidence can be recorded. -/
theorem valid_rejectedRecord_iff (hvalid : validateSourceInventoryRecord setting.texts
      managed.record = [])
    (hexamined : examination setting scanner managed content = .ok findings)
    (hcodes : findings.failureCodes ≠ []) {target : Option Path} :
    validateSourceInventoryRecord setting.texts (rejectedRecord managed findings
      (manifestArtifactPath setting input.quarantineRoot (target.getD managed.path))
      (rejectedSafetyEvidence setting managed findings (setting.now 0)
        (manifestArtifactPath setting input.quarantineRoot (target.getD managed.path))
        (originalPath managed))) = [] ↔
    Recordable setting scanner input managed content target := by
  rw [← shape_rejected_iff hexamined hcodes]
  generalize manifestArtifactPath setting input.quarantineRoot (target.getD managed.path) = place
  have hdeclared : ∀ evidence, declarationFailures setting.texts
      (rejectedRecord managed findings place evidence) = [] := fun evidence =>
    (List.append_eq_nil_iff.mp hvalid).1
  have hstatus : ∀ evidence, statusFailures setting.texts
      (rejectedRecord managed findings place evidence) = [] := by
    intro evidence
    simp [statusFailures, rejectedRecord, failureIf, hcodes]
  have hverdict : rejectedVerdict findings.scan ≠ .clean := by
    unfold rejectedVerdict
    split
    · split_ifs <;> simp
    · simp
  unfold validateSourceInventoryRecord
  rw [if_neg (by simp [rejectedRecord]), hdeclared, hstatus, List.nil_append, List.append_nil]
  unfold safetyFailures
  simp only [rejectedRecord]
  split_ifs with hshape
  · refine iff_of_true ?_ hshape
    simp [failureIf, rejectedSafetyEvidence, hcodes, hverdict]
  · exact iff_of_false (by simp [failureIf]) hshape

end Examine

end DocumentLibrary
