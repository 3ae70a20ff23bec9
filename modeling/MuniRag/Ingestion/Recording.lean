import MuniRag.Ingestion.AcceptanceFencing
import MuniRag.Ingestion.Inspecting

/-!
# Recording what an inspection found

The outcome of an inspection is recorded in every reachable state in which its
generation is still live, on every way out of `inspect` but one: an infected
verdict carries the scanner's own texts, and is refused where the outcome may
not have them.
-/

namespace Ingestion

open Results Table Runs

/-! ## What `inspect` has in hand -/

/-- A read of an object has its bytes within the limit. -/
theorem read_length {E : Type} {reader : ArtifactObjectReader E}
    {reference : ArtifactObjectReference} {maxBytes : Nat} {timeoutMs : SizeNumber}
    {content : List UInt8}
    (hread : (readBoundedImmutableObject reader reference
      ⟨.integer maxBytes, timeoutMs⟩).result = .ok content) :
    1 ≤ content.length ∧ content.length ≤ maxBytes := by
  obtain ⟨limit, declared, iterator, hopens⟩ := opens_of_read (Or.inl ⟨content, hread⟩)
  rw [read_of_opens hopens] at hread
  obtain ⟨-, ⟨hlimit, -⟩, -, object, -, -, ⟨-, hlow, hhigh⟩, -⟩ := hopens
  obtain ⟨chunks, -, -, hlength, rfl⟩ := (readBody_ok_iff hhigh iterator content).mp hread
  have hsame : maxBytes = limit := by
    have hcast := SizeNumber.integer.inj hlimit
    exact_mod_cast hcast
  rw [hlength, hsame]
  exact ⟨hlow, hhigh⟩

section
variable {platform : Platform} {E : Type}

/-- What an inspection knows of the bytes it has, and of their structure. -/
structure Finding.Knows (service : AcceptanceService platform E) (inspection : Inspection)
    (content : List UInt8) : Prop where
  length : 1 ≤ content.length ∧ content.length ≤ 1024 * 1024 * 1024
  hexadecimal : isSha256Hex (service.digest content) = true

def Finding.Typed (platform : Platform) (inspection : Inspection) (structural : Structural) : Prop :=
  structural ∈ structurals ∧
    structural.detectedMediaType = normalizeMediaType platform inspection.mediaType

/-- What is known on each way out. -/
def Finding.Sound (service : AcceptanceService platform E) (inspection : Inspection) :
    Finding E → Prop
  | .unread _ => True
  | .malformed content _ => Knows service inspection content
  | .altered content structural => Knows service inspection content ∧
      Typed platform inspection structural
  | .unscanned content structural _ => Knows service inspection content ∧
      Typed platform inspection structural
  | .scanned content structural _ => Knows service inspection content ∧
      Typed platform inspection structural ∧
      service.digest content = inspection.artifactSha256

theorem examine_sound (service : AcceptanceService platform E) (inspection : Inspection) :
    (service.examine inspection).Sound service inspection := by
  unfold AcceptanceService.examine
  split
  · trivial
  · rename_i content hread
    have hbounds := read_length hread
    have hknows : Finding.Knows service inspection content :=
      ⟨⟨hbounds.1, hbounds.2.trans service.policy.bytesBound.2⟩, service.hexadecimal content⟩
    split
    · exact hknows
    · rename_i structural hinspect
      have htyped : Finding.Typed platform inspection structural := service.inspector.known hinspect
      split
      · exact ⟨hknows, htyped⟩
      · rename_i hdigest
        split
        · exact ⟨hknows, htyped⟩
        · exact ⟨hknows, htyped, not_not.mp hdigest⟩

/-! ## Valid outcomes -/

/-- A component that the pattern takes, or the one that stands in for it, is one. -/
theorem safe_or {component fallback : JsString} (hfallback : isSafeComponent fallback = true) :
    isSafeComponent (if isSafeComponent component then component else fallback) = true := by
  split
  · assumption
  · exact hfallback

theorem safeCode_isCodeText (code : Option JsString) (fallback : JsString)
    (hfallback : isCodeText fallback = true) : isCodeText (safeCode code fallback) = true := by
  unfold safeCode
  cases hcode : code.filter isCodeText with
  | none => exact hfallback
  | some text => exact (Option.filter_eq_some_iff.mp hcode).2

theorem storedSignature_isSafeText (signature : Option JsString) :
    isSafeText (storedSignature signature) = true := by
  unfold storedSignature
  cases hsignature : signature.filter isSafeText with
  | none => decide
  | some text => exact (Option.filter_eq_some_iff.mp hsignature).2

theorem definitions_isSafe (scan : MalwareScanResult) :
    scan.definitions?.all isSafeComponent = true := by
  unfold MalwareScanResult.definitions?
  cases hversion : scan.definitionsVersion.filter _ with
  | none => rfl
  | some version =>
      have hsafe := (Option.filter_eq_some_iff.mp hversion).2
      simp only [Bool.and_eq_true] at hsafe
      exact hsafe.2

theorem structurals_safe {structural : Structural} (hknown : structural ∈ structurals) :
    isSafeText structural.detectedMediaType = true ∧
      isSafeComponent structural.signature = true ∧
      ∀ u ∈ structural.detectedMediaType, 0x20 ≤ u ∧ u ≤ 0x7e := by
  have hall : structurals.all (fun known => isSafeText known.detectedMediaType &&
      isSafeComponent known.signature &&
      known.detectedMediaType.all fun u => decide (0x20 ≤ u ∧ u ≤ 0x7e)) = true := by
    decide +kernel
  have hone := List.all_eq_true.mp hall structural hknown
  simpa only [Bool.and_eq_true, List.all_eq_true, decide_eq_true_eq, and_assoc] using hone

/-- The checks of `validateOutcome`, one by one. -/
theorem validateOutcome_ok {inspection : Inspection} {outcome : InspectionOutcome} :
    validateOutcome inspection outcome = .ok () ↔
      outcome.isShaped = true ∧
      (outcome.verdict = .clean → outcome.identifies inspection ∧ outcome.failureCode = none ∧
        outcome.malwareSignature = none ∧
        ∃ expiry ∈ outcome.expiry, ∃ inspectedAt ∈ outcome.inspectedAt, inspectedAt < expiry) ∧
      (outcome.verdict ≠ .clean → outcome.failureCode.isSome = true ∧
        outcome.acceptedUntil = none) ∧
      (outcome.verdict = .infected → outcome.identifies inspection ∧
        outcome.malwareSignature.isSome = true ∧
        outcome.failureCode = some (js "malware_detected")) := by
  unfold validateOutcome
  simp only [then_ok, require_ok, exists_and_left, exists_const]

/-- The shape of an outcome whose way out writes its own texts. -/
theorem isShaped_bare (verdict : Verdict) (inspectedAt : Time)
    {engine engineVersion failureCode : JsString} (hengine : isSafeComponent engine = true)
    (hversion : isSafeComponent engineVersion = true) (hcode : isCodeText failureCode = true) :
    (bareOutcome verdict engine engineVersion failureCode inspectedAt).isShaped = true := by
  simp [InspectionOutcome.isShaped, bareOutcome, hengine, hversion, hcode]

theorem isShaped_ofContent {outcome : InspectionOutcome} {service : AcceptanceService platform E}
    {inspection : Inspection} {content : List UInt8}
    (hknows : Finding.Knows service inspection content) (hshaped : outcome.isShaped = true) :
    (outcome.ofContent (service.digest content) content).isShaped = true := by
  obtain ⟨⟨hlow, hhigh⟩, hhex⟩ := hknows
  simp only [InspectionOutcome.isShaped, InspectionOutcome.ofContent, Bool.and_eq_true,
    Option.all_some, decide_eq_true_eq, hhex] at hshaped ⊢
  have hlength : (1 : Int) ≤ content.length ∧ (content.length : Int) ≤ 1024 * 1024 * 1024 := by
    omega
  tauto

theorem isShaped_ofStructure {outcome : InspectionOutcome} {inspection : Inspection}
    {structural : Structural} (htyped : Finding.Typed platform inspection structural)
    (hshaped : outcome.isShaped = true) : (outcome.ofStructure structural).isShaped = true := by
  obtain ⟨hmedia, hsignature, -⟩ := structurals_safe htyped.1
  simp only [InspectionOutcome.isShaped, InspectionOutcome.ofStructure, Bool.and_eq_true,
    Option.all_some, hmedia, hsignature] at hshaped ⊢
  tauto

/-- An outcome that is neither clean nor infected needs its shape and its code only. -/
theorem validateOutcome_error {inspection : Inspection} {outcome : InspectionOutcome}
    (hshaped : outcome.isShaped = true)
    (hverdict : outcome.verdict = .rejected ∨ outcome.verdict = .error)
    (hcode : outcome.failureCode.isSome = true) (huntil : outcome.acceptedUntil = none) :
    validateOutcome inspection outcome = .ok () := by
  refine validateOutcome_ok.mpr ⟨hshaped, ?_, ?_, ?_⟩
  · intro hclean
    rcases hverdict with h | h <;> rw [h] at hclean <;> cases hclean
  · intro _
    exact ⟨hcode, huntil⟩
  · intro hinfected
    rcases hverdict with h | h <;> rw [h] at hinfected <;> cases hinfected

/-- The scanner's own texts that an infected outcome carries are such as it may have. -/
def MalwareScanResult.IsStorable (platform : Platform) (scan : MalwareScanResult) : Prop :=
  isSafeComponent scan.engine = true ∧ isSafeComponent scan.engineVersion = true ∧
    scan.definitionsVersion.all isSafeComponent = true ∧
    platform.hasControl (storedSignature scan.signature) = false

/-- The same texts, as far as `validateOutcome` looks at them. -/
def MalwareScanResult.IsNamed (scan : MalwareScanResult) : Prop :=
  isSafeComponent scan.engine = true ∧ isSafeComponent scan.engineVersion = true ∧
    scan.definitionsVersion.all isSafeComponent = true

theorem getD_isSafe {version : Option JsString} :
    isSafeComponent (version.getD (js "unavailable")) = true ↔
      version.all isSafeComponent = true := by
  cases version with
  | none => exact iff_of_true (by decide) rfl
  | some text => rfl

theorem provesClean_of_infected {scan : MalwareScanResult} (h : scan.verdict = .infected) :
    scan.provesClean = false := by
  simp [MalwareScanResult.provesClean, h]

/-- What `inspect` makes of a scan of bytes that it knows. -/
def scannedOutcome (service : AcceptanceService platform E) (content : List UInt8)
    (structural : Structural) (scan : MalwareScanResult) (inspectedAt : Time) :
    InspectionOutcome :=
  ((scanOutcome scan inspectedAt service.policy.malwareScanMaxAgeMs).ofContent
    (service.digest content) content).ofStructure structural

section
variable {service : AcceptanceService platform E} {inspection : Inspection}
  {content : List UInt8} {structural : Structural} {scan : MalwareScanResult} {inspectedAt : Time}

/-- A clean scan by known components makes a valid outcome. -/
theorem validateOutcome_clean (hknows : Finding.Knows service inspection content)
    (htyped : Finding.Typed platform inspection structural)
    (hdigest : service.digest content = inspection.artifactSha256)
    (hclean : scan.provesClean = true) :
    validateOutcome inspection (scannedOutcome service content structural scan inspectedAt) =
      .ok () := by
  have hproof : scan.definitions?.isSome = true ∧ isSafeComponent scan.engine = true ∧
      isSafeComponent scan.engineVersion = true := by
    simp only [MalwareScanResult.provesClean, Bool.and_eq_true] at hclean
    tauto
  obtain ⟨hdefinitions, hengine, hversion⟩ := hproof
  have hshaped : (scanOutcome scan inspectedAt
      service.policy.malwareScanMaxAgeMs).isShaped = true := by
    simp [scanOutcome, hclean, InspectionOutcome.isShaped, bareOutcome, hengine, hversion,
      definitions_isSafe]
  have hlater : inspectedAt < inspectedAt + service.policy.malwareScanMaxAgeMs :=
    Int.lt_add_of_pos_right _ (Int.natCast_pos.mpr service.policy.ageBound.1)
  refine validateOutcome_ok.mpr
    ⟨isShaped_ofStructure htyped (isShaped_ofContent hknows hshaped), ?_, ?_, ?_⟩
  · intro _
    simp [scannedOutcome, scanOutcome, hclean, InspectionOutcome.ofContent,
      InspectionOutcome.ofStructure, InspectionOutcome.identifies, InspectionOutcome.expiry,
      bareOutcome, hdigest, hdefinitions, hlater]
  · intro hother
    exact absurd (by simp [scannedOutcome, scanOutcome, hclean, InspectionOutcome.ofContent,
      InspectionOutcome.ofStructure, bareOutcome]) hother
  · intro hinfected
    simp [scannedOutcome, scanOutcome, hclean, InspectionOutcome.ofContent,
      InspectionOutcome.ofStructure, bareOutcome] at hinfected

/-- An infected scan makes a valid outcome exactly when its components are named
as they should. -/
theorem validateOutcome_infected (hknows : Finding.Knows service inspection content)
    (htyped : Finding.Typed platform inspection structural)
    (hdigest : service.digest content = inspection.artifactSha256)
    (hinfected : scan.verdict = .infected) :
    validateOutcome inspection (scannedOutcome service content structural scan inspectedAt) =
      .ok () ↔ scan.IsNamed := by
  have hclean := provesClean_of_infected hinfected
  constructor
  · intro hvalid
    have hshaped := (validateOutcome_ok.mp hvalid).1
    simp only [scannedOutcome, scanOutcome, hclean, hinfected, InspectionOutcome.isShaped,
      InspectionOutcome.ofContent, InspectionOutcome.ofStructure, bareOutcome,
      Bool.false_eq_true, if_false, if_true, Bool.and_eq_true, Option.all_some,
      getD_isSafe] at hshaped
    exact ⟨by tauto, by tauto, by tauto⟩
  · rintro ⟨hengine, hversion, hdefinitions⟩
    have hcode : isCodeText (js "malware_detected") = true := by decide
    have hshaped : (scanOutcome scan inspectedAt
        service.policy.malwareScanMaxAgeMs).isShaped = true := by
      simp [scanOutcome, hclean, hinfected, InspectionOutcome.isShaped, bareOutcome, hengine,
        hversion, getD_isSafe.mpr hdefinitions, storedSignature_isSafeText, hcode]
    refine validateOutcome_ok.mpr
      ⟨isShaped_ofStructure htyped (isShaped_ofContent hknows hshaped), ?_, ?_, ?_⟩
    · intro hother
      simp [scannedOutcome, scanOutcome, hclean, hinfected, InspectionOutcome.ofContent,
        InspectionOutcome.ofStructure, bareOutcome] at hother
    · intro _
      simp [scannedOutcome, scanOutcome, hclean, hinfected, InspectionOutcome.ofContent,
        InspectionOutcome.ofStructure, bareOutcome]
    · intro _
      simp [scannedOutcome, scanOutcome, hclean, hinfected, InspectionOutcome.ofContent,
        InspectionOutcome.ofStructure, InspectionOutcome.identifies, bareOutcome, hdigest]

/-- Any other scan makes a valid outcome, from texts that stand in for its own
where these may not be stored. -/
theorem validateOutcome_failed (hknows : Finding.Knows service inspection content)
    (htyped : Finding.Typed platform inspection structural) (hclean : scan.provesClean = false)
    (hinfected : scan.verdict ≠ .infected) :
    validateOutcome inspection (scannedOutcome service content structural scan inspectedAt) =
      .ok () := by
  have hcode : isCodeText (if scan.verdict = .clean then js "malware_definitions_unavailable"
      else safeCode scan.failureCode (js "malware_scan_error")) = true := by
    split
    · decide
    · exact safeCode_isCodeText _ _ (by decide)
  have hengine : isSafeComponent (if isSafeComponent scan.engine then scan.engine
      else js "scanner_adapter") = true := safe_or (by decide)
  have hversion : isSafeComponent (if isSafeComponent scan.engineVersion then scan.engineVersion
      else js "unavailable") = true := safe_or (by decide)
  have hshaped : (scanOutcome scan inspectedAt
      service.policy.malwareScanMaxAgeMs).isShaped = true := by
    simp [scanOutcome, hclean, hinfected, InspectionOutcome.isShaped, bareOutcome, hcode,
      hengine, hversion, definitions_isSafe]
  apply validateOutcome_error (isShaped_ofStructure htyped (isShaped_ofContent hknows hshaped))
  · right
    simp [scanOutcome, hclean, hinfected, InspectionOutcome.ofContent,
      InspectionOutcome.ofStructure, bareOutcome]
  · simp [scanOutcome, hclean, hinfected, InspectionOutcome.ofContent,
      InspectionOutcome.ofStructure, bareOutcome]
  · simp [scanOutcome, hclean, hinfected, InspectionOutcome.ofContent,
      InspectionOutcome.ofStructure, bareOutcome]

end

/-- The outcome of a finding is valid, except for an infected scan by components
that are not named as they should. -/
theorem validateOutcome_finding {service : AcceptanceService platform E} {inspection : Inspection}
    {finding : Finding E} (hsound : finding.Sound service inspection) (inspectedAt : Time) :
    validateOutcome inspection
        (finding.outcome service.digest service.policy.malwareScanMaxAgeMs inspectedAt) = .ok () ↔
      ∀ content structural scan, finding = .scanned content structural scan →
        scan.verdict = .infected → scan.IsNamed := by
  cases finding with
  | unread error =>
      refine iff_of_true ?_ (by simp)
      have hengine : isSafeComponent (js "object_store") = true := by decide
      have hversion : isSafeComponent (js "unavailable") = true := by decide
      have hcode := safeCode_isCodeText error.code? (js "artifact_object_read_failed") (by decide)
      have hshaped := isShaped_bare .error inspectedAt hengine hversion hcode
      exact validateOutcome_error hshaped (Or.inr rfl) rfl rfl
  | malformed content failure =>
      refine iff_of_true ?_ (by simp)
      have hengine : isSafeComponent (js "not_run") = true := by decide
      have hversion : isSafeComponent (js "not_available") = true := by decide
      have hcode := safeCode_isCodeText failure.code?
        (js "artifact_structural_verification_failed") (by decide)
      have hshaped := isShaped_bare .rejected inspectedAt hengine hversion hcode
      exact validateOutcome_error (isShaped_ofContent hsound hshaped) (Or.inl rfl) rfl rfl
  | altered content structural =>
      refine iff_of_true ?_ (by simp)
      have hengine : isSafeComponent (js "not_run") = true := by decide
      have hversion : isSafeComponent (js "not_available") = true := by decide
      have hcode : isCodeText (js "artifact_content_hash_mismatch") = true := by decide
      have hshaped := isShaped_bare .rejected inspectedAt hengine hversion hcode
      exact validateOutcome_error
        (isShaped_ofStructure hsound.2 (isShaped_ofContent hsound.1 hshaped)) (Or.inl rfl) rfl rfl
  | unscanned content structural failure =>
      refine iff_of_true ?_ (by simp)
      have hengine : isSafeComponent (js "scanner_adapter") = true := by decide
      have hversion : isSafeComponent (js "unavailable") = true := by decide
      have hcode := safeCode_isCodeText failure.code? (js "malware_scan_error") (by decide)
      have hshaped := isShaped_bare .error inspectedAt hengine hversion hcode
      exact validateOutcome_error
        (isShaped_ofStructure hsound.2 (isShaped_ofContent hsound.1 hshaped)) (Or.inr rfl) rfl rfl
  | scanned content structural scan =>
      obtain ⟨hknows, htyped, hdigest⟩ := hsound
      change validateOutcome inspection (scannedOutcome service content structural scan
        inspectedAt) = .ok () ↔ _
      simp only [Finding.scanned.injEq, and_imp]
      by_cases hinfected : scan.verdict = .infected
      · rw [validateOutcome_infected hknows htyped hdigest hinfected]
        constructor
        · rintro hnamed _ _ _ rfl rfl rfl _
          exact hnamed
        · intro hall
          exact hall content structural scan rfl rfl rfl hinfected
      · refine iff_of_true ?_ ?_
        · cases hclean : scan.provesClean with
          | true => exact validateOutcome_clean hknows htyped hdigest hclean
          | false => exact validateOutcome_failed hknows htyped hclean hinfected
        · rintro _ _ _ rfl rfl rfl h
          exact absurd h hinfected

/-! ## Completing a live generation -/

/-- The object of an inspection whose generation is live, as its row stands. -/
structure Inspection.IsLive (inspection : Inspection) (tables : Tables) (object : ObjectRow) :
    Prop where
  found : (tables.objects.find? fun row =>
    row.key = (inspection.tenantId, inspection.artifactObjectId)) = some object
  version : object.documentVersionId = inspection.documentVersionId
  content : object.expectedSha256 = inspection.artifactSha256
  mediaType : object.declaredMediaType = inspection.mediaType
  scanning : object.status = .scanning
  generation : object.inspectionGeneration = inspection.inspectionGeneration
  checks : object.meetsChecks
  unscanned : ∀ row ∈ tables.scans,
    ¬ (row.object = object.key ∧ row.inspectionGeneration = object.inspectionGeneration)

/-- The outcome of an inspection is in the tables: its scan, and the object's decision. -/
structure InspectionRecorded (tables : Tables) (inspection : Inspection) (outcome : InspectionOutcome) :
    Prop where
  scan : ∃ scan ∈ tables.scans, scan.object = inspection.key ∧
    scan.inspectionGeneration = inspection.inspectionGeneration ∧
    scan.verdict = outcome.verdict ∧ scan.malwareSignature = outcome.malwareSignature ∧
    scan.failureCode = outcome.failureCode
  object : ∃ object ∈ tables.objects, object.key = inspection.key ∧
    object.status = if outcome.verdict = .clean then .accepted else .rejected

/-- The row that `COMPLETE_OBJECT_SQL` leaves meets the checks of its table. -/
theorem decide_meetsChecks {object : ObjectRow} (hchecks : object.meetsChecks)
    {outcome : InspectionOutcome} (hexpiry : outcome.verdict = .clean → outcome.expiry ≠ none)
    (scanId : Uuid) (now : Time) : (object.decide outcome scanId now).meetsChecks := by
  obtain ⟨hlow, hhigh, -, -⟩ := hchecks
  refine ⟨hlow, hhigh, ?_, ?_⟩
  · by_cases hclean : outcome.verdict = .clean <;> simp [ObjectRow.decide, hclean]
  · by_cases hclean : outcome.verdict = .clean
    · simp [ObjectRow.decide, hclean, hexpiry hclean]
    · simp [ObjectRow.decide, hclean]

/-- The row of an object is still there when room was made for its acceptance. -/
theorem makeRoom_keeps {tables : Tables} {object : ObjectRow} (hobject : object ∈ tables.objects)
    (verdict : Verdict) (now : Time) : object ∈ (makeRoom tables object verdict now).objects := by
  unfold makeRoom
  split
  · exact mem_updateWhere.mpr (Or.inr ⟨hobject, by simp⟩)
  · exact hobject

/-- **Completion.** A valid outcome of a live generation is recorded, if the
database takes its texts and, when it is clean, its acceptance has not ended. -/
theorem completeInspection_of_live {tables : Tables} {inspection : Inspection}
    {object : ObjectRow} (hlive : inspection.IsLive tables object) {outcome : InspectionOutcome}
    {inspectedAt : Time} (hinspected : outcome.inspectedAt = some inspectedAt)
    (hvalid : validateOutcome inspection outcome = .ok ())
    (hmedia : outcome.detectedMediaType.all (!platform.hasControl ·) = true)
    (hsignature : outcome.malwareSignature.all (!platform.hasControl ·) = true)
    {scanId : Uuid} (hfresh : ∀ row ∈ tables.scans, row.id ≠ scanId) {now : Time}
    (hclean : outcome.verdict = .clean →
      outcome.detectedMediaType = some object.declaredMediaType ∧
        ∃ expiry, outcome.expiry = some expiry ∧ inspectedAt < expiry ∧
          expiry ≤ inspectedAt + sevenDays ∧ now < expiry) :
    ∃ out, completeInspection platform tables inspection outcome scanId now = .ok out ∧
      InspectionRecorded out.1 inspection outcome := by
  have hobject : object ∈ tables.objects := List.mem_of_find?_eq_some hlive.found
  have hkey : object.key = (inspection.tenantId, inspection.artifactObjectId) := by
    simpa only [decide_eq_true_eq] using List.find?_some hlive.found
  have hscanned : insertScan platform tables (inspection.scan outcome scanId inspectedAt now) =
      .ok { tables with
        scans := tables.scans ++ [inspection.scan outcome scanId inspectedAt now] } := by
    simp only [insertScan, then_ok, raiseUnless_ok, return_ok]
    refine ⟨(), ⟨hmedia, hsignature⟩, (), hfresh, (), ?_, trivial⟩
    rintro row hrow ⟨hrowKey, hrowGeneration⟩
    exact hlive.unscanned row hrow
      ⟨hrowKey.trans hkey.symm, hrowGeneration.trans hlive.generation.symm⟩
  have hproven : outcome.verdict = .clean →
      (object.decide outcome scanId now).ProvenBy
        (inspection.scan outcome scanId inspectedAt now) := by
    intro hverdict
    obtain ⟨hdetected, expiry, hexpiry, hlater, hbound, -⟩ := hclean hverdict
    have hcontent := ((validateOutcome_ok.mp hvalid).2.1 hverdict).1.1
    refine ⟨?_, hkey.symm, hverdict, hlive.generation.symm, ?_, hdetected, ?_⟩
    · simp [ObjectRow.decide, hverdict, Inspection.scan]
    · rw [show (object.decide outcome scanId now).expectedSha256 = inspection.artifactSha256 from
        hlive.content]
      exact hcontent
    · exact ⟨expiry, by simp [ObjectRow.decide, hverdict, hexpiry], hlater, hbound⟩
  have hupdate : updateObject (makeRoom { tables with
        scans := tables.scans ++ [inspection.scan outcome scanId inspectedAt now] }
        object outcome.verdict now) object (object.decide outcome scanId now) now =
      .ok { tables with
        scans := tables.scans ++ [inspection.scan outcome scanId inspectedAt now]
        objects := updateWhere (·.id = object.id) (fun _ => object.decide outcome scanId now)
          (makeRoom tables object outcome.verdict now).objects } := by
    rw [makeRoom_scanned]
    simp only [updateObject, validateAcceptance, then_ok, raiseUnless_ok, return_ok]
    refine ⟨(), ⟨(), ?_, ?_⟩, (), ?_, (), ?_, trivial⟩
    · intro _ haccepted
      rw [hlive.scanning] at haccepted
      cases haccepted
    · intro haccepted
      have hverdict : outcome.verdict = .clean := by
        by_contra hother
        simp [ObjectRow.decide, hother] at haccepted
      obtain ⟨-, expiry, hexpiry, -, -, hopen⟩ := hclean hverdict
      exact ⟨⟨_, List.mem_append_right _ (List.mem_singleton_self _), hproven hverdict⟩,
        by simp [ObjectRow.decide, hverdict, hexpiry, hopen]⟩
    · refine decide_meetsChecks hlive.checks ?_ scanId now
      intro hverdict
      obtain ⟨-, expiry, hexpiry, -⟩ := hclean hverdict
      simp [hexpiry]
    · rintro haccepted row hrow hother ⟨hstatus, hversion⟩
      have hverdict : outcome.verdict = .clean := by
        by_contra hverdict
        simp [ObjectRow.decide, hverdict] at haccepted
      rw [hverdict] at hrow
      exact hother (accepted_makeRoom hrow hstatus hversion)
  refine ⟨({ tables with
    scans := tables.scans ++ [inspection.scan outcome scanId inspectedAt now]
    objects := updateWhere (·.id = object.id) (fun _ => object.decide outcome scanId now)
      (makeRoom tables object outcome.verdict now).objects },
    { artifactObjectId := inspection.artifactObjectId, artifactScanId := scanId
      documentVersionId := inspection.documentVersionId
      status := if outcome.verdict = .clean then .accepted else .rejected
      verdict := outcome.verdict, failureCode := outcome.failureCode
      acceptedUntil := if outcome.verdict = .clean then outcome.expiry else none }), ?_, ?_⟩
  · simp only [completeInspection, then_ok, orRefuse_ok, require_ok, return_ok]
    exact ⟨(), hvalid, inspectedAt, hinspected, object, hlive.found, (),
      ⟨hlive.version, hlive.content, hlive.scanning, hlive.generation⟩, _, hscanned, _, hupdate,
      rfl⟩
  · refine ⟨⟨_, List.mem_append_right _ (List.mem_singleton_self _), rfl, rfl, rfl, rfl, rfl⟩,
      ⟨object.decide outcome scanId now, ?_, hkey, rfl⟩⟩
    exact mem_updateWhere.mpr (Or.inl ⟨object, makeRoom_keeps hobject _ _, rfl, rfl⟩)

/-- What a completion that returns has found. -/
theorem completeInspection_checks {tables : Tables} {inspection : Inspection}
    {outcome : InspectionOutcome} {scanId : Uuid} {now : Time} {out : Tables × AcceptanceRecord}
    (hdone : completeInspection platform tables inspection outcome scanId now = .ok out) :
    validateOutcome inspection outcome = .ok () ∧
      outcome.malwareSignature.all (!platform.hasControl ·) = true ∧
      (outcome.verdict = .clean → outcome.expiry.any (now < ·) = true) := by
  obtain ⟨tables', record⟩ := out
  have heffect := completeInspection_effect hdone
  simp only [completeInspection, insertScan, then_ok, orRefuse_ok, require_ok, raiseUnless_ok,
    return_ok] at hdone
  obtain ⟨_, hvalid, _, _, _, _, _, _, _, ⟨_, ⟨_, hsignature⟩, _⟩, _⟩ := hdone
  refine ⟨hvalid, hsignature, ?_⟩
  intro hclean
  cases heffect with
  | inspected object scan hobject hkey hversion hrecord hscanning hgeneration hscan hunscanned
      hproof => exact (hproof hclean).2

/-! ## Inspections in a run -/

/-- An object later in a run: its metadata stay, its generation only grows, and
it is scanned again only under a new one. -/
structure ObjectRow.Evolves (old new : ObjectRow) : Prop where
  key : new.key = old.key
  version : new.documentVersionId = old.documentVersionId
  content : new.expectedSha256 = old.expectedSha256
  mediaType : new.declaredMediaType = old.declaredMediaType
  generation : old.inspectionGeneration ≤ new.inspectionGeneration
  scanning : new.status = .scanning →
    old.status = .scanning ∨ old.inspectionGeneration < new.inspectionGeneration

theorem ObjectRow.Evolves.refl (object : ObjectRow) : object.Evolves object :=
  ⟨rfl, rfl, rfl, rfl, le_refl _, Or.inl⟩

variable {tables tables' : Tables}

/-- Making room leaves each object, or supersedes it. -/
theorem makeRoom_evolves {old : ObjectRow} (hold : old ∈ tables.objects) (object : ObjectRow)
    (verdict : Verdict) (now : Time) :
    ∃ new ∈ (makeRoom tables object verdict now).objects, new.id = old.id ∧ old.Evolves new := by
  unfold makeRoom
  split
  · by_cases hother : old.version = object.version ∧ old.id ≠ object.id ∧ old.status = .accepted
    · refine ⟨_, mem_updateWhere.mpr (Or.inl ⟨old, hold, hother, rfl⟩), rfl, ?_⟩
      exact ⟨rfl, rfl, rfl, rfl, le_refl _, by simp⟩
    · exact ⟨old, mem_updateWhere.mpr (Or.inr ⟨hold, hother⟩), rfl, .refl old⟩
  · exact ⟨old, hold, rfl, .refl old⟩

/-- Every object that a call finds is still there behind it. -/
theorem effect_evolves {command : Command} {answer : Answer} (h : Guarded tables)
    (heffect : Effect platform tables command tables' answer) {old : ObjectRow}
    (hold : old ∈ tables.objects) : ∃ new ∈ tables'.objects, old.Evolves new := by
  cases heffect with
  | begun mediaType hfresh hunbound hid => exact ⟨old, List.mem_append_left _ hold, .refl old⟩
  | @restarted input objectId now inspection object hobject hreference hversion hid =>
      by_cases hsame : old.id = object.id
      · obtain rfl := List.inj_on_of_nodup_map h.ids hold hobject hsame
        refine ⟨_, mem_updateWhere.mpr (Or.inl ⟨old, hold, rfl, rfl⟩), ?_⟩
        exact ⟨rfl, rfl, rfl, rfl, Nat.le_succ _, fun _ => Or.inr (Nat.lt_succ_self _)⟩
      · exact ⟨old, mem_updateWhere.mpr (Or.inr ⟨hold, hsame⟩), .refl old⟩
  | @inspected inspection outcome scanId now record object scan hobject hkey hversion hrecord
      hscanning hgeneration hscan hunscanned hproof =>
      by_cases hsame : old.id = object.id
      · obtain rfl := List.inj_on_of_nodup_map h.ids hold hobject hsame
        refine ⟨old.decide outcome scanId now,
          mem_updateWhere.mpr (Or.inl ⟨old, makeRoom_keeps hold _ _, rfl, rfl⟩), ?_⟩
        exact ⟨rfl, rfl, rfl, rfl, le_refl _, fun _ => Or.inl hscanning⟩
      · obtain ⟨new, hnew, hid, hevolves⟩ := makeRoom_evolves hold object outcome.verdict now
        exact ⟨new, mem_updateWhere.mpr (Or.inr ⟨hnew, by rwa [hid]⟩), hevolves⟩
  | _ => exact ⟨old, hold, .refl old⟩

/-- The object that an inspection is of. -/
def Inspection.IsOf (inspection : Inspection) (object : ObjectRow) : Prop :=
  object.key = inspection.key ∧ object.documentVersionId = inspection.documentVersionId ∧
    object.expectedSha256 = inspection.artifactSha256 ∧
    object.declaredMediaType = inspection.mediaType

/-- What a beginning that returns leaves. -/
theorem beginInspection_ok {input : BeginInput} {objectId : Uuid} {now : Time}
    {inspection : Inspection}
    (hbegun : beginInspection platform tables input objectId now = .ok (tables', inspection)) :
    inspection.mediaType ∈ supportedMediaTypes ∧
      (∃ object ∈ tables'.objects, inspection.IsOf object) ∧
      ((∀ object ∈ tables.objects, object.meetsChecks) →
        ∀ object ∈ tables'.objects, object.meetsChecks) := by
  simp only [beginInspection, validateBeginInput, then_ok, orRefuse_ok, require_ok,
    return_ok] at hbegun
  obtain ⟨_, ⟨_, _, _, hsupported, _⟩, version, _, _, _, registered, hregistered, hout⟩ := hbegun
  obtain ⟨rfl, rfl⟩ := Prod.mk.inj hout
  refine ⟨hsupported, ?_⟩
  unfold registerObject at hregistered
  split at hregistered
  · simp only [insertObject, then_ok, raiseUnless_ok, return_ok] at hregistered
    obtain ⟨_, ⟨_, ⟨hchecks, _⟩, _, _, rfl⟩, rfl⟩ := hregistered
    refine ⟨⟨_, List.mem_append_right _ (List.mem_singleton_self _), rfl, rfl, rfl, rfl⟩, ?_⟩
    intro hall object hobject
    rcases List.mem_append.mp hobject with hold | hnew
    · exact hall object hold
    · rw [List.mem_singleton.mp hnew]
      exact hchecks
  · rename_i object hfound
    simp only [updateObject, then_ok, require_ok, raiseUnless_ok, return_ok] at hregistered
    obtain ⟨_, ⟨hversion, _, hmedia, hcontent⟩, _, _, _, ⟨_, _, _, hchecks, _, _, rfl⟩, rfl⟩ :=
      hregistered
    have hobject : object ∈ tables.objects := List.mem_of_find?_eq_some hfound
    have htenant : object.tenantId = input.tenantId := by
      have hsame := List.find?_some hfound
      simp only [decide_eq_true_eq] at hsame
      exact hsame.1
    refine ⟨⟨_, mem_updateWhere.mpr (Or.inl ⟨object, hobject, rfl, rfl⟩), ?_, hversion, hcontent,
      hmedia⟩, ?_⟩
    · exact Prod.ext htenant rfl
    · intro hall row hrow
      rcases mem_updateWhere.mp hrow with ⟨_, _, _, rfl⟩ | ⟨hold, -⟩
      · exact hchecks
      · exact hall row hold

/-- What a run keeps of its objects, scans and inspections. -/
structure Inspectable (ledger : Ledger) : Prop where
  guarded : Guarded ledger.tables
  checks : ∀ object ∈ ledger.tables.objects, object.meetsChecks
  scans : ∀ scan ∈ ledger.tables.scans, ∃ object ∈ ledger.tables.objects,
    object.key = scan.object ∧ scan.inspectionGeneration ≤ object.inspectionGeneration ∧
      (object.status = .scanning → scan.inspectionGeneration < object.inspectionGeneration)
  begun : ∀ inspection, .inspecting inspection ∈ ledger.history →
    inspection.mediaType ∈ supportedMediaTypes ∧
      ∃ object ∈ ledger.tables.objects, inspection.IsOf object

/-- The rows of a call meet the checks of their table. -/
theorem call_checks {command : Command} {answer : Answer}
    (hcall : call platform tables command = .ok (tables', answer))
    (hall : ∀ object ∈ tables.objects, object.meetsChecks) :
    ∀ object ∈ tables'.objects, object.meetsChecks := by
  cases command with
  | beginInspection input objectId now =>
      simp only [call, then_ok, return_ok] at hcall
      obtain ⟨⟨_, inspection⟩, hbegun, hout⟩ := hcall
      obtain ⟨rfl, -⟩ := Prod.mk.inj hout
      exact (beginInspection_ok hbegun).2.2 hall
  | completeInspection inspection outcome scanId now =>
      cases call_effect hcall with
      | inspected object scan hobject hkey hversion hrecord hscanning hgeneration hscan hunscanned
          hproof =>
          intro row hrow
          rcases mem_updateWhere.mp hrow with ⟨_, _, _, rfl⟩ | ⟨hroom, -⟩
          · refine decide_meetsChecks (hall object hobject) ?_ scanId now
            intro hclean hnone
            have hopen := (hproof hclean).2
            rw [hnone] at hopen
            cases hopen
          · unfold makeRoom at hroom
            split at hroom
            · rcases mem_updateWhere.mp hroom with ⟨old, hold, _, rfl⟩ | ⟨hold, -⟩
              · obtain ⟨hlow, hhigh, -⟩ := hall old hold
                exact ⟨hlow, hhigh, by simp, by simp⟩
              · exact hall row hold
            · exact hall row hroom
  | _ =>
      cases call_effect hcall
      all_goals exact hall

theorem inspectable_step {ledger : Ledger} (h : Inspectable ledger) (command : Command) :
    Inspectable (ledger.step platform command) := by
  cases hcall : call platform ledger.tables command with
  | error refusal =>
      have hsame : ledger.step platform command = ledger := by
        rw [Ledger.step, hcall]
        rfl
      rw [hsame]
      exact h
  | ok out =>
      obtain ⟨tables', answer⟩ := out
      have heffect := call_effect hcall
      rw [Ledger.step_of_call hcall]
      refine ⟨guarded_effect h.guarded heffect, call_checks hcall h.checks, ?_, ?_⟩
      · intro scan hscan
        have hbefore : scan ∈ ledger.tables.scans → ∃ object ∈ tables'.objects,
            object.key = scan.object ∧
              scan.inspectionGeneration ≤ object.inspectionGeneration ∧
              (object.status = .scanning →
                scan.inspectionGeneration < object.inspectionGeneration) := by
          intro hold
          obtain ⟨old, hmem, hkey, hbehind, hscanning⟩ := h.scans scan hold
          obtain ⟨new, hnew, hevolves⟩ := effect_evolves h.guarded heffect hmem
          refine ⟨new, hnew, hevolves.key.trans hkey, hbehind.trans hevolves.generation, ?_⟩
          intro hstatus
          rcases hevolves.scanning hstatus with hsame | hlater
          · exact (hscanning hsame).trans_le hevolves.generation
          · exact hbehind.trans_lt hlater
        cases heffect with
        | @inspected inspection outcome scanId now record object new hobject hkey hversion hrecord
            hscanning hgeneration hnew hunscanned hproof =>
            rcases List.mem_append.mp hscan with hold | hlast
            · exact hbefore hold
            · obtain rfl := List.mem_singleton.mp hlast
              refine ⟨object.decide outcome scanId now,
                mem_updateWhere.mpr (Or.inl ⟨object, makeRoom_keeps hobject _ _, rfl, rfl⟩),
                hnew.2.1.symm, hnew.2.2.le, ?_⟩
              intro hstatus
              simp only [ObjectRow.decide] at hstatus
              split at hstatus <;> cases hstatus
        | _ => exact hbefore hscan
      · intro inspection hhistory
        rcases List.mem_cons.mp hhistory with hlast | hold
        · cases command with
          | beginInspection input objectId now =>
              simp only [call, then_ok, return_ok] at hcall
              obtain ⟨⟨_, begun⟩, hbegun, hout⟩ := hcall
              obtain ⟨rfl, hanswer⟩ := Prod.mk.inj hout
              rw [← hanswer] at hlast
              obtain rfl := Answer.inspecting.inj hlast
              exact ⟨(beginInspection_ok hbegun).1, (beginInspection_ok hbegun).2.1⟩
          | _ =>
              rw [← hlast] at heffect
              cases heffect
        · obtain ⟨hsupported, old, hmem, hkey, hversion, hcontent, hmedia⟩ :=
            h.begun inspection hold
          obtain ⟨new, hnew, hevolves⟩ := effect_evolves h.guarded heffect hmem
          exact ⟨hsupported, new, hnew, hevolves.key.trans hkey, hevolves.version.trans hversion,
            hevolves.content.trans hcontent, hevolves.mediaType.trans hmedia⟩

theorem inspectable_run (platform : Platform) (commands : List Command) :
    Inspectable (run (Ledger.step platform) .opening commands) := by
  refine run_invariant Inspectable (fun _ command h => inspectable_step h command) ?_ commands
  exact ⟨guarded_empty, by simp [Ledger.opening, Tables.empty],
    by simp [Ledger.opening, Tables.empty], by simp [Ledger.opening]⟩

/-- An inspection of the run whose object is scanned under its generation is live. -/
theorem Inspectable.live {ledger : Ledger} (h : Inspectable ledger) {inspection : Inspection}
    (hbegun : .inspecting inspection ∈ ledger.history) {object : ObjectRow}
    (hobject : object ∈ ledger.tables.objects) (hkey : object.key = inspection.key)
    (hscanning : object.status = .scanning)
    (hgeneration : object.inspectionGeneration = inspection.inspectionGeneration) :
    inspection.IsLive ledger.tables object := by
  have hunique : ∀ row ∈ ledger.tables.objects, row.key = object.key → row = object := by
    intro row hrow hsame
    exact List.inj_on_of_nodup_map h.guarded.ids hrow hobject (congrArg Prod.snd hsame)
  obtain ⟨-, row, hrow, hrowKey, hversion, hcontent, hmedia⟩ := h.begun inspection hbegun
  obtain rfl := hunique row hrow (hrowKey.trans hkey.symm)
  refine ⟨?_, hversion, hcontent, hmedia, hscanning, hgeneration, h.checks row hrow, ?_⟩
  · cases hfound : ledger.tables.objects.find? fun other =>
        other.key = (inspection.tenantId, inspection.artifactObjectId) with
    | none =>
        have hnone := List.find?_eq_none.mp hfound row hrow
        simp only [decide_eq_true_eq] at hnone
        exact absurd hkey hnone
    | some found =>
        have hfoundKey := List.find?_some hfound
        simp only [decide_eq_true_eq] at hfoundKey
        rw [hunique found (List.mem_of_find?_eq_some hfound) (hfoundKey.trans hkey.symm)]
  · rintro scan hscan ⟨hscanKey, hscanGeneration⟩
    obtain ⟨other, hother, hotherKey, -, hbehind⟩ := h.scans scan hscan
    obtain rfl := hunique other hother (hotherKey.trans hscanKey)
    have hless := hbehind hscanning
    rw [hscanGeneration] at hless
    exact absurd hless (Nat.lt_irrefl _)

/-! ## The law -/

/-- What a recorded finding needs: a clean scan an acceptance that has not ended,
an infected scan texts that may be stored, and every other way out nothing. -/
def Finding.Recordable (platform : Platform) (maxAgeMs : Nat) (inspectedAt now : Time) :
    Finding E → Prop
  | .scanned _ _ scan => (scan.provesClean = true → now < inspectedAt + maxAgeMs) ∧
      (scan.verdict = .infected → scan.IsStorable platform)
  | _ => True

/-- An outcome whose verdict is clean is that of a scan which proves it. -/
theorem outcome_clean {finding : Finding E} {digest : List UInt8 → Sha256} {maxAgeMs : Nat}
    {inspectedAt : Time} (hclean : (finding.outcome digest maxAgeMs inspectedAt).verdict = .clean) :
    ∃ content structural scan, finding = .scanned content structural scan ∧
      scan.provesClean = true ∧
      (finding.outcome digest maxAgeMs inspectedAt).detectedMediaType =
        some structural.detectedMediaType ∧
      (finding.outcome digest maxAgeMs inspectedAt).expiry = some (inspectedAt + maxAgeMs) := by
  cases finding with
  | unread error => cases hclean
  | malformed content failure => cases hclean
  | altered content structural => cases hclean
  | unscanned content structural failure => cases hclean
  | scanned content structural scan =>
      refine ⟨content, structural, scan, rfl, ?_, rfl, ?_⟩
      · by_contra hproves
        have hverdict : (scanOutcome scan inspectedAt maxAgeMs).verdict = .clean := hclean
        simp only [scanOutcome, hproves, if_false] at hverdict
        split at hverdict <;> cases hverdict
      · by_contra hexpiry
        apply hexpiry
        have hverdict : (scanOutcome scan inspectedAt maxAgeMs).verdict = .clean := hclean
        unfold scanOutcome at hverdict
        split at hverdict
        · rename_i hproves
          simp [Finding.outcome, scanOutcome, hproves, InspectionOutcome.expiry,
            InspectionOutcome.ofContent, InspectionOutcome.ofStructure]
        · split at hverdict <;> cases hverdict

theorem outcome_inspectedAt (finding : Finding E) {digest : List UInt8 → Sha256} {maxAgeMs : Nat}
    {inspectedAt : Time} :
    (finding.outcome digest maxAgeMs inspectedAt).inspectedAt = some inspectedAt := by
  cases finding with
  | scanned content structural scan =>
      change (scanOutcome scan inspectedAt maxAgeMs).inspectedAt = _
      unfold scanOutcome
      split
      · rfl
      · split <;> rfl
  | _ => rfl

/-- A media type in an outcome is one of the inspector's. -/
theorem outcome_media {service : AcceptanceService platform E} {inspection : Inspection}
    {finding : Finding E} (hsound : finding.Sound service inspection) {maxAgeMs : Nat}
    {inspectedAt : Time} {media : JsString}
    (hmedia : media ∈ (finding.outcome service.digest maxAgeMs inspectedAt).detectedMediaType) :
    ∃ structural, Finding.Typed platform inspection structural ∧
      media = structural.detectedMediaType := by
  cases finding with
  | unread error => cases hmedia
  | malformed content failure => cases hmedia
  | altered content structural =>
      cases hmedia
      exact ⟨structural, hsound.2, rfl⟩
  | unscanned content structural failure =>
      cases hmedia
      exact ⟨structural, hsound.2, rfl⟩
  | scanned content structural scan =>
      cases hmedia
      exact ⟨structural, hsound.2.1, rfl⟩

/-- A malware signature in an outcome is the stored one of an infected scan. -/
theorem outcome_signature {finding : Finding E} {digest : List UInt8 → Sha256} {maxAgeMs : Nat}
    {inspectedAt : Time} {signature : JsString} :
    signature ∈ (finding.outcome digest maxAgeMs inspectedAt).malwareSignature ↔
      ∃ content structural scan, finding = .scanned content structural scan ∧
        scan.verdict = .infected ∧ signature = storedSignature scan.signature := by
  cases finding with
  | scanned content structural scan =>
      change signature ∈ (scanOutcome scan inspectedAt maxAgeMs).malwareSignature ↔ _
      simp only [Finding.scanned.injEq]
      by_cases hinfected : scan.verdict = .infected
      · have hstored : (scanOutcome scan inspectedAt maxAgeMs).malwareSignature =
            some (storedSignature scan.signature) := by
          simp [scanOutcome, provesClean_of_infected hinfected, hinfected]
        rw [hstored, Option.mem_some_iff]
        constructor
        · rintro rfl
          exact ⟨content, structural, scan, ⟨rfl, rfl, rfl⟩, hinfected, rfl⟩
        · rintro ⟨_, _, _, ⟨rfl, rfl, rfl⟩, -, rfl⟩
          rfl
      · have hnone : (scanOutcome scan inspectedAt maxAgeMs).malwareSignature = none := by
          unfold scanOutcome
          simp only [hinfected, if_false]
          split <;> rfl
        rw [hnone]
        constructor
        · intro hmem
          cases hmem
        · rintro ⟨_, _, _, ⟨rfl, rfl, rfl⟩, h, -⟩
          exact absurd h hinfected
  | _ => exact iff_of_false (fun hmem => nomatch hmem) (by simp)

/-- A supported media type is its own normal form. -/
theorem normalizeMediaType_supported
    (hlower : ∀ mediaType ∈ supportedMediaTypes, platform.toLowerCase mediaType = mediaType)
    {mediaType : JsString} (hsupported : mediaType ∈ supportedMediaTypes) :
    normalizeMediaType platform mediaType = mediaType := by
  have hplain : ∀ mediaType ∈ supportedMediaTypes,
      trim (mediaType.takeWhile (· != 0x3b)) = mediaType := by decide +kernel
  rw [normalizeMediaType, hplain mediaType hsupported, hlower mediaType hsupported]

/-- **What an inspection found is recorded.** In every state of a run, for an
inspection whose generation is live there, whatever reader, inspector and
scanner answer or throw: the outcome is stored and decides the object exactly
when a clean scan is stored before its acceptance ends, and an infected scan
comes with names and a signature that may be stored. -/
theorem inspection_recorded_iff (platform : Platform) (service : AcceptanceService platform E)
    (commands : List Command) (inspection : Inspection) (object : ObjectRow) (scanId : Uuid)
    (inspectedAt now : Time)
    (hlower : ∀ mediaType ∈ supportedMediaTypes, platform.toLowerCase mediaType = mediaType)
    (hprintable : ∀ text : JsString, (∀ u ∈ text, 0x20 ≤ u ∧ u ≤ 0x7e) →
      platform.hasControl text = false)
    (hbegun : .inspecting inspection ∈ (run (Ledger.step platform) .opening commands).history)
    (hobject : object ∈ (run (Ledger.step platform) .opening commands).tables.objects)
    (hkey : object.key = inspection.key) (hscanning : object.status = .scanning)
    (hgeneration : object.inspectionGeneration = inspection.inspectionGeneration)
    (hfresh : ∀ scan ∈ (run (Ledger.step platform) .opening commands).tables.scans,
      scan.id ≠ scanId) :
    (∃ out, completeInspection platform (run (Ledger.step platform) .opening commands).tables
        inspection (service.outcome inspection inspectedAt) scanId now = .ok out ∧
      InspectionRecorded out.1 inspection (service.outcome inspection inspectedAt)) ↔
    (service.examine inspection).Recordable platform service.policy.malwareScanMaxAgeMs
      inspectedAt now := by
  have hrun := inspectable_run platform commands
  have hlive := hrun.live hbegun hobject hkey hscanning hgeneration
  have hsound := examine_sound service inspection
  have hsupported := (hrun.begun inspection hbegun).1
  have hvalidity := validateOutcome_finding hsound inspectedAt
  unfold AcceptanceService.outcome
  generalize service.examine inspection = finding at hsound hvalidity ⊢
  constructor
  · rintro ⟨out, hdone, -⟩
    obtain ⟨hvalid, hsignature, hopen⟩ := completeInspection_checks hdone
    cases finding with
    | scanned content structural scan =>
        refine ⟨?_, ?_⟩
        · intro hproves
          have hexpiry := hopen (by
            simp [Finding.outcome, scanOutcome, hproves, InspectionOutcome.ofContent,
              InspectionOutcome.ofStructure, bareOutcome])
          simpa [Finding.outcome, scanOutcome, hproves, InspectionOutcome.ofContent,
            InspectionOutcome.ofStructure, InspectionOutcome.expiry] using hexpiry
        · intro hinfected
          obtain ⟨hengine, hversion, hdefinitions⟩ :=
            hvalidity.mp hvalid content structural scan rfl hinfected
          refine ⟨hengine, hversion, hdefinitions, ?_⟩
          have hcontrol := (Option.all_eq_true _ _).mp hsignature _
            (outcome_signature.mpr ⟨content, structural, scan, rfl, hinfected, rfl⟩)
          simpa using hcontrol
    | _ => trivial
  · intro hrecordable
    refine completeInspection_of_live hlive (outcome_inspectedAt finding) (hvalidity.mpr ?_) ?_ ?_ hfresh ?_
    · rintro content structural scan rfl hinfected
      obtain ⟨hengine, hversion, hdefinitions, -⟩ := hrecordable.2 hinfected
      exact ⟨hengine, hversion, hdefinitions⟩
    · apply (Option.all_eq_true _ _).mpr
      intro media hmedia
      obtain ⟨structural, htyped, rfl⟩ := outcome_media hsound hmedia
      rw [hprintable _ (structurals_safe htyped.1).2.2]
      rfl
    · apply (Option.all_eq_true _ _).mpr
      intro signature hsignature
      obtain ⟨content, structural, scan, rfl, hinfected, rfl⟩ := outcome_signature.mp hsignature
      rw [(hrecordable.2 hinfected).2.2.2]
      rfl
    · intro hclean
      obtain ⟨content, structural, scan, rfl, hproves, hdetected, hexpiry⟩ := outcome_clean hclean
      have hdeclared : structural.detectedMediaType = object.declaredMediaType := by
        rw [hsound.2.1.2, normalizeMediaType_supported hlower hsupported, hlive.mediaType]
      have hlater : inspectedAt < inspectedAt + service.policy.malwareScanMaxAgeMs :=
        Int.lt_add_of_pos_right _ (Int.natCast_pos.mpr service.policy.ageBound.1)
      have hweek : inspectedAt + service.policy.malwareScanMaxAgeMs ≤ inspectedAt + sevenDays :=
        Int.add_le_add_left (Int.ofNat_le.mpr service.policy.ageBound.2) _
      exact ⟨hdetected.trans (congrArg some hdeclared), _, hexpiry, hlater, hweek,
        hrecordable.1 hproves⟩

end

/-! ## Sample inspections -/

/-- A text that says "hola". -/
def sampleContent : List UInt8 := [0x68, 0x6f, 0x6c, 0x61]

/-- The sample text as a stream of two chunks. -/
def sampleStream : ByteIterator Unit where
  next n := if n = 0 then .bytes [0x68, 0x6f] else if n = 1 then .bytes [0x6c, 0x61] else .done
  hasReturn := true

/-- The signature tests on the sample text. -/
def sampleProbe : ContentProbe where
  extension name := if name = js "manual.txt" then js ".txt" else []
  hasPdfSignature _ := false
  hasDocxSignature _ := false
  isUtf8Text content := content == sampleContent

/-- A scan that found a virus, by an engine of this version. -/
def sampleInfection (engineVersion : String) : MalwareScanResult where
  verdict := .infected
  engine := js "clamav"
  engineVersion := js engineVersion
  definitionsVersion := some (js "27000")
  signature := some (js "Eicar-Test")
  failureCode := some (js "malware_detected")

/-- A service whose store has the sample text and whose scanner finds a virus in it. -/
def sampleService (engineVersion : String) : AcceptanceService samplePlatform Unit where
  objectReader reference _ := .ok ⟨reference, .integer 4, .stream sampleStream⟩
  inspector := artifactInspector samplePlatform sampleProbe
  scanner _ _ := .ok (sampleInfection engineVersion)
  policy := ⟨1000, 3600000, by decide, by decide⟩
  objectReadTimeoutMs := .integer 1000
  digest _ := sampleArtifact
  hexadecimal _ := by decide

/-- The sample version with the inspection of its text begun. -/
def sampleTextBegun : List Command := [
  .catalogue sampleDocument,
  .registerVersion sampleVersion,
  .beginInspection { sampleBegin with
    originalFilename := js "manual.txt", mediaType := js "text/plain" } (sampleId 5) 1000]

/-- The inspection of the sample text. -/
def sampleTextInspection : Inspection :=
  { sampleInspection 1 with originalFilename := js "manual.txt", mediaType := js "text/plain" }

/-- What the sample inspection finds. -/
theorem examine_sample (engineVersion : String) :
    (sampleService engineVersion).examine sampleTextInspection =
      .scanned sampleContent ⟨js "text/plain", js "utf8-text-v1"⟩ (sampleInfection engineVersion) := by
  have hopens : Opens (sampleService engineVersion).objectReader sampleTextInspection.object
      ⟨.integer 1000, .integer 1000⟩ 1000 4 sampleStream := by
    refine ⟨by decide +kernel, ⟨rfl, by decide, by decide⟩, ⟨1000, rfl, by decide, by decide⟩,
      ⟨sampleTextInspection.object, .integer 4, .stream sampleStream⟩, rfl, rfl,
      ⟨rfl, by decide, by decide⟩, rfl⟩
  have hbody : readBody 1000 4 sampleStream = .ok sampleContent := by
    refine (readBody_ok_iff (by decide) _ _).mpr ⟨[[0x68, 0x6f], [0x6c, 0x61]], ?_, by decide,
      by decide, rfl⟩
    exact ⟨rfl, rfl, rfl⟩
  have hread : (readBoundedImmutableObject (sampleService engineVersion).objectReader
      sampleTextInspection.object ⟨.integer (sampleService engineVersion).policy.maxArtifactBytes,
        (sampleService engineVersion).objectReadTimeoutMs⟩).result = .ok sampleContent :=
    (congrArg BoundedRead.result (read_of_opens hopens)).trans hbody
  have hinspect : (sampleService engineVersion).inspector.inspect sampleContent
      sampleTextInspection.originalFilename sampleTextInspection.mediaType
        (sampleService engineVersion).policy.maxArtifactBytes =
          .ok ⟨js "text/plain", js "utf8-text-v1"⟩ := by
    change inspectArtifactContent samplePlatform sampleProbe sampleContent (js "manual.txt")
      (js "text/plain") 1000 = _
    decide +kernel
  simp only [AcceptanceService.examine, hread, hinspect]
  rfl

/-- The sample infection is recorded as a rejection. -/
theorem inspection_recorded_sample :
    ∃ out, completeInspection samplePlatform
        (run (Ledger.step samplePlatform) .opening sampleTextBegun).tables sampleTextInspection
        ((sampleService "1.4").outcome sampleTextInspection 1500) (sampleId 6) 2000 = .ok out ∧
      InspectionRecorded out.1 sampleTextInspection
        ((sampleService "1.4").outcome sampleTextInspection 1500) := by
  have hlower : ∀ mediaType ∈ supportedMediaTypes,
      samplePlatform.toLowerCase mediaType = mediaType := by decide +kernel
  have hprintable : ∀ text : JsString, (∀ u ∈ text, 0x20 ≤ u ∧ u ≤ 0x7e) →
      samplePlatform.hasControl text = false := by
    intro text htext
    rw [← Bool.not_eq_true]
    intro hcontrol
    obtain ⟨u, hu, hunit⟩ := List.any_eq_true.mp hcontrol
    obtain ⟨hlow, hhigh⟩ := htext u hu
    simp only [isControl, Bool.or_eq_true, decide_eq_true_eq, beq_iff_eq] at hunit
    simp only [UInt16.le_iff_toNat_le, ← UInt16.toNat_inj] at hlow hhigh hunit
    simp at hlow hhigh hunit
    omega
  obtain ⟨object, hobject, hkey, hscanning, hgeneration⟩ :
      ∃ object ∈ (run (Ledger.step samplePlatform) .opening sampleTextBegun).tables.objects,
        object.key = sampleTextInspection.key ∧ object.status = .scanning ∧
          object.inspectionGeneration = sampleTextInspection.inspectionGeneration := by
    decide +kernel
  have hbegun : .inspecting sampleTextInspection ∈
      (run (Ledger.step samplePlatform) .opening sampleTextBegun).history := by decide +kernel
  have hfresh : ∀ scan ∈ (run (Ledger.step samplePlatform) .opening sampleTextBegun).tables.scans,
      scan.id ≠ sampleId 6 := by decide +kernel
  refine (inspection_recorded_iff samplePlatform (sampleService "1.4") sampleTextBegun
    sampleTextInspection object (sampleId 6) 1500 2000 hlower hprintable hbegun hobject hkey
    hscanning hgeneration hfresh).mpr ?_
  rw [examine_sample]
  refine ⟨?_, ?_⟩
  · intro hproves
    cases hproves
  · intro _
    exact ⟨by decide, by decide, by decide, by decide +kernel⟩

/-- An infection found by an engine whose version line starts with a bracket is
lost: no completion of its live generation returns. -/
theorem infection_unrecorded :
    .inspecting sampleTextInspection ∈
        (run (Ledger.step samplePlatform) .opening sampleTextBegun).history ∧
      (∃ object ∈ (run (Ledger.step samplePlatform) .opening sampleTextBegun).tables.objects,
        object.key = sampleTextInspection.key ∧ object.status = .scanning ∧
          object.inspectionGeneration = sampleTextInspection.inspectionGeneration) ∧
      (completeInspection samplePlatform
        (run (Ledger.step samplePlatform) .opening sampleTextBegun).tables sampleTextInspection
        ((sampleService "-git-").outcome sampleTextInspection 1500) (sampleId 6) 2000).isOk =
          false := by
  refine ⟨by decide +kernel, by decide +kernel, ?_⟩
  unfold AcceptanceService.outcome
  rw [examine_sample]
  decide +kernel

end Ingestion
