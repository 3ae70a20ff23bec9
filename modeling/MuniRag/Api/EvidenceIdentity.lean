import MuniRag.Lib.FixedPattern
import MuniRag.Text

/-!
# Evidence identities in citation labels

`evidenceIdentity.ts`: the ids of a section are written behind its citation label, and read
back from there.  Labels come from documents.  Where the ids are valid the reading gives just
these; where they are not, the label is left as it is, and a marker that it ends in is read
as if it had been bound (`identity_bound_iff`).
-/

namespace Api

open FixedPattern

/-- The ids of a section, as texts. -/
structure EvidenceIdentity where
  documentId : JsString
  documentVersionId : JsString
  sectionId : JsString
  deriving DecidableEq, Repr

namespace EvidenceIdentity

variable (identity : EvidenceIdentity)

/-- The checks that the binder and the reader make. -/
def isCanonical : Bool :=
  (uuidValue identity.documentId).isSome && (uuidValue identity.documentVersionId).isSome &&
    (uuidValue identity.sectionId).isSome

/-- `toLowerCase` on each id; ids are texts of ASCII. -/
def lower : EvidenceIdentity where
  documentId := identity.documentId.map lowerUnit
  documentVersionId := identity.documentVersionId.map lowerUnit
  sectionId := identity.sectionId.map lowerUnit

/-- The ids between an opening and a closing bracket, separated by colons. -/
def marker (opening : JsString) : JsString :=
  opening ++ (identity.documentId ++ ([0x3a] ++ (identity.documentVersionId ++ ([0x3a] ++
    (identity.sectionId ++ [0x5d])))))

end EvidenceIdentity

def markerOpening : JsString := js " [la-muni-rag-evidence:"

/-- A literal of a pattern with the flag `i`. -/
def literalPattern (literal : JsString) : List (UInt16 → Bool) :=
  literal.map fun u v => decide (lowerUnit v = lowerUnit u)

/-- The class `[0-9a-f-]` with the flag `i`. -/
def isIdUnit (u : UInt16) : Bool := (hexDigit u).isSome || u == 0x2d

def idPattern : List (UInt16 → Bool) := List.replicate 36 isIdUnit

/-- `MARKER_PATTERN`. -/
def markerPattern : List (UInt16 → Bool) :=
  literalPattern markerOpening ++ (idPattern ++ (literalPattern [0x3a] ++ (idPattern ++
    (literalPattern [0x3a] ++ (idPattern ++ literalPattern [0x5d])))))

def bindCitationLabelToEvidenceIdentity (label : JsString) (identity : EvidenceIdentity) :
    JsString :=
  if !identity.isCanonical then label
  else label ++ identity.lower.marker markerOpening

/-- The three groups of a match. -/
def matchedGroups (found : JsString) : EvidenceIdentity where
  documentId := (found.drop 23).take 36
  documentVersionId := (found.drop 60).take 36
  sectionId := (found.drop 97).take 36

def evidenceIdentityFromCitationLabel (label : JsString) : Option EvidenceIdentity :=
  match findAtEnd markerPattern label with
  | none => none
  | some found =>
      let groups := matchedGroups found
      if !groups.isCanonical then none else some groups.lower

/-! ## Matches -/

section Matches

variable {identity : EvidenceIdentity} {label text : JsString}

theorem isSome_of_mapM {units : JsString} {digits : List Nat}
    (h : units.mapM hexDigit = some digits) {u : UInt16} (hu : u ∈ units) :
    (hexDigit u).isSome = true := by
  induction units generalizing digits with
  | nil => exact absurd hu List.not_mem_nil
  | cons first rest ih =>
      simp only [List.mapM_cons, Option.bind_eq_bind, Option.bind_eq_some_iff] at h
      obtain ⟨digit, hdigit, digits, hdigits, -⟩ := h
      rcases List.mem_cons.mp hu with rfl | hu
      · exact Option.isSome_iff_exists.mpr ⟨digit, hdigit⟩
      · exact ih hdigits hu

/-- A UUID text has 36 units, all of them digits or dashes. -/
theorem uuid_units {id : JsString} (h : (uuidValue id).isSome = true) :
    id.length = 36 ∧ ∀ u ∈ id, isIdUnit u = true := by
  obtain ⟨value, hvalue⟩ := Option.isSome_iff_exists.mp h
  obtain ⟨digits, hdigits, -⟩ := Option.map_eq_some_iff.mp hvalue
  rw [uuidDigits] at hdigits
  split_ifs at hdigits with hshape
  refine ⟨by simpa using congrArg List.length hshape, fun u hu => ?_⟩
  by_cases hdash : u = 0x2d
  · simp [isIdUnit, hdash]
  · have hmem : u ∈ id.filter (· != 0x2d) := List.mem_filter.mpr ⟨hu, by simpa using hdash⟩
    simp [isIdUnit, isSome_of_mapM hdigits hmem]

/-- A mark that is no letter is the lower case of itself alone. -/
theorem lowerUnit_eq_mark {u mark : UInt16} (hmark : mark.toNat < 0x41 ∨ 0x5a < mark.toNat ∧
    mark.toNat < 0x61) : lowerUnit u = mark ↔ u = mark := by
  by_cases hupper : 0x41 ≤ u ∧ u ≤ 0x5a
  · obtain ⟨hlow, hhigh, hadd⟩ := toNat_add_case hupper
    rw [lowerUnit_upper hupper]
    constructor
    · rintro rfl
      omega
    · rintro rfl
      omega
  · rw [lowerUnit_other hupper]

theorem matches_mark {mark : UInt16} (hmark : mark.toNat < 0x41 ∨ 0x5a < mark.toNat ∧
    mark.toNat < 0x61) : matchesAll (literalPattern [mark]) text = true ↔ text = [mark] := by
  rw [literalPattern, matches_literal, List.map_singleton,
    (lowerUnit_eq_mark hmark).mpr rfl, List.map_eq_singleton_iff]
  constructor
  · rintro ⟨u, rfl, hu⟩
    rw [(lowerUnit_eq_mark hmark).mp hu]
  · rintro rfl
    exact ⟨mark, rfl, (lowerUnit_eq_mark hmark).mpr rfl⟩

/-- What the pattern matches: an opening bracket in any case, three texts of 36 units, and a
closing bracket. -/
theorem matches_marker : matchesAll markerPattern text = true ↔ ∃ opening identity,
    text = EvidenceIdentity.marker identity opening ∧
      opening.map lowerUnit = markerOpening.map lowerUnit ∧
      matchesAll idPattern identity.documentId = true ∧
      matchesAll idPattern identity.documentVersionId = true ∧
      matchesAll idPattern identity.sectionId = true := by
  have hcolon : (0x3a : UInt16).toNat < 0x41 ∨ 0x5a < (0x3a : UInt16).toNat ∧
      (0x3a : UInt16).toNat < 0x61 := by decide
  have hbracket : (0x5d : UInt16).toNat < 0x41 ∨ 0x5a < (0x5d : UInt16).toNat ∧
      (0x5d : UInt16).toNat < 0x61 := by decide
  simp only [markerPattern, matches_append, matches_mark hcolon, matches_mark hbracket]
  constructor
  · rintro ⟨opening, _, rfl, hopening, documentId, _, rfl, hdocument, _, _, rfl, rfl,
      documentVersionId, _, rfl, hversion, _, _, rfl, rfl, sectionId, _, rfl, hsection, rfl⟩
    exact ⟨opening, ⟨documentId, documentVersionId, sectionId⟩, rfl,
      matches_literal.mp hopening, hdocument, hversion, hsection⟩
  · rintro ⟨opening, identity, rfl, hopening, hdocument, hversion, hsection⟩
    exact ⟨opening, _, rfl, matches_literal.mpr hopening, _, _, rfl, hdocument, _, _, rfl, rfl,
      _, _, rfl, hversion, _, _, rfl, rfl, _, _, rfl, hsection, rfl⟩

theorem matchedGroups_marker {opening : JsString} (hopening : opening.length = 23)
    (hdocument : identity.documentId.length = 36)
    (hversion : identity.documentVersionId.length = 36)
    (hsection : identity.sectionId.length = 36) :
    matchedGroups (identity.marker opening) = identity := by
  have hdrop : (identity.marker opening).drop 23 = identity.documentId ++ ([0x3a] ++
      (identity.documentVersionId ++ ([0x3a] ++ (identity.sectionId ++ [0x5d])))) :=
    List.drop_left' hopening
  have hdropVersion : (identity.marker opening).drop 60 =
      identity.documentVersionId ++ ([0x3a] ++ (identity.sectionId ++ [0x5d])) := by
    rw [show 60 = 23 + (36 + 1) from rfl, ← List.drop_drop, hdrop, ← List.drop_drop,
      List.drop_left' hdocument]
    rfl
  have hdropSection : (identity.marker opening).drop 97 = identity.sectionId ++ [0x5d] := by
    rw [show 97 = 60 + (36 + 1) from rfl, ← List.drop_drop, hdropVersion, ← List.drop_drop,
      List.drop_left' hversion]
    rfl
  simp only [matchedGroups, hdrop, hdropVersion, hdropSection, List.take_left' hdocument,
    List.take_left' hversion, List.take_left' hsection]

end Matches

/-! ## What is read -/

section Reading

variable {identity ids : EvidenceIdentity} {label : JsString}

/-- A label ends in a marker with valid ids; its letters may be of either case. -/
def EndsInMarker (label : JsString) (identity : EvidenceIdentity) : Prop :=
  identity.isCanonical = true ∧ ∃ before opening,
    label = before ++ identity.marker opening ∧ opening.map lowerUnit = markerOpening

/-- The identity that a label should carry once ids are bound to it: these in lower case, where
they are valid. -/
def boundIdentity (ids : EvidenceIdentity) : Option EvidenceIdentity :=
  if ids.isCanonical then some ids.lower else none

theorem isCanonical_iff : identity.isCanonical = true ↔
    (uuidValue identity.documentId).isSome = true ∧
      (uuidValue identity.documentVersionId).isSome = true ∧
      (uuidValue identity.sectionId).isSome = true := by
  rw [EvidenceIdentity.isCanonical, Bool.and_eq_true_iff, Bool.and_eq_true_iff, and_assoc]

theorem isCanonical_lower : identity.lower.isCanonical = identity.isCanonical := by
  simp only [EvidenceIdentity.isCanonical, EvidenceIdentity.lower, uuidValue_lower]

theorem lowerUnit_lowerUnit (u : UInt16) : lowerUnit (lowerUnit u) = lowerUnit u := by
  by_cases hupper : 0x41 ≤ u ∧ u ≤ 0x5a
  · obtain ⟨hlow, -, hadd⟩ := toNat_add_case hupper
    rw [lowerUnit_upper hupper]
    refine lowerUnit_other fun h => ?_
    have hhigh := UInt16.le_iff_toNat_le.mp h.2
    rw [hadd] at hhigh
    simp only [UInt16.reduceToNat] at hhigh
    omega
  · rw [lowerUnit_other hupper, lowerUnit_other hupper]

theorem lower_lower : identity.lower.lower = identity.lower := by
  simp only [EvidenceIdentity.lower, List.map_map, Function.comp_def, lowerUnit_lowerUnit]

theorem length_markerOpening : markerOpening.length = 23 := by decide

theorem markerOpening_lower : markerOpening.map lowerUnit = markerOpening := by decide

/-- **Reading.**  A label is read as the ids of the marker that it ends in. -/
theorem evidenceIdentity_eq_some_iff :
    evidenceIdentityFromCitationLabel label = some ids ↔
      ∃ identity, EndsInMarker label identity ∧ ids = identity.lower := by
  unfold evidenceIdentityFromCitationLabel
  constructor
  · intro h
    split at h
    · exact absurd h (by simp)
    next found hfound =>
      obtain ⟨hsuffix, hmatches⟩ := findAtEnd_eq_some_iff.mp hfound
      obtain ⟨opening, identity, rfl, hopening, hdocument, hversion, hsection⟩ :=
        matches_marker.mp hmatches
      have hlength : opening.length = 23 := by
        simpa [length_markerOpening] using congrArg List.length hopening
      have hgroups : matchedGroups (identity.marker opening) = identity :=
        matchedGroups_marker hlength (matches_replicate.mp hdocument).1
          (matches_replicate.mp hversion).1 (matches_replicate.mp hsection).1
      obtain ⟨before, hbefore⟩ := hsuffix
      simp only [hgroups] at h
      split_ifs at h with hcanonical
      rw [Bool.not_eq_true', Bool.not_eq_false] at hcanonical
      exact ⟨identity, ⟨hcanonical, before, opening, hbefore.symm,
        hopening.trans markerOpening_lower⟩, (Option.some.inj h).symm⟩
  · rintro ⟨identity, ⟨hcanonical, before, opening, rfl, hopening⟩, rfl⟩
    obtain ⟨hdocument, hversion, hsection⟩ := isCanonical_iff.mp hcanonical
    have hlength : opening.length = 23 := by
      simpa [length_markerOpening] using congrArg List.length hopening
    have hfound : findAtEnd markerPattern (before ++ identity.marker opening) =
        some (identity.marker opening) := by
      refine findAtEnd_eq_some_iff.mpr ⟨List.suffix_append _ _, matches_marker.mpr ?_⟩
      exact ⟨opening, identity, rfl, hopening.trans markerOpening_lower.symm,
        matches_replicate.mpr (uuid_units hdocument), matches_replicate.mpr (uuid_units hversion),
        matches_replicate.mpr (uuid_units hsection)⟩
    rw [hfound]
    simp only [matchedGroups_marker hlength (uuid_units hdocument).1 (uuid_units hversion).1
      (uuid_units hsection).1, hcanonical]
    rfl

/-- Valid ids are read back, whatever the label is. -/
theorem identity_of_bound (h : ids.isCanonical = true) :
    evidenceIdentityFromCitationLabel (bindCitationLabelToEvidenceIdentity label ids) =
      some ids.lower := by
  refine evidenceIdentity_eq_some_iff.mpr ⟨ids.lower, ⟨?_, label, markerOpening, ?_, ?_⟩, ?_⟩
  · rw [isCanonical_lower, h]
  · simp [bindCitationLabelToEvidenceIdentity, h]
  · exact markerOpening_lower
  · exact lower_lower.symm

/-- **Round trip.**  What is read of a label with ids bound to it is as it should be exactly
when the ids are valid or the label does not end in a marker of its own. -/
theorem identity_bound_iff (label : JsString) (ids : EvidenceIdentity) :
    evidenceIdentityFromCitationLabel (bindCitationLabelToEvidenceIdentity label ids) =
        boundIdentity ids ↔
      ids.isCanonical = true ∨ ∀ identity, ¬ EndsInMarker label identity := by
  by_cases hcanonical : ids.isCanonical = true
  · simp [boundIdentity, hcanonical, identity_of_bound hcanonical]
  · have hbound : bindCitationLabelToEvidenceIdentity label ids = label := by
      simp [bindCitationLabelToEvidenceIdentity, hcanonical]
    rw [hbound, boundIdentity, if_neg hcanonical, Option.eq_none_iff_forall_ne_some]
    constructor
    · intro hnone
      refine .inr fun identity hends => ?_
      exact hnone identity.lower (evidenceIdentity_eq_some_iff.mpr ⟨identity, hends, rfl⟩)
    · rintro (h | hnone)
      · exact absurd h hcanonical
      · intro read hread
        obtain ⟨identity, hends, -⟩ := evidenceIdentity_eq_some_iff.mp hread
        exact hnone identity hends

/-- A label of a document that ends in a marker. -/
def forgedLabel : JsString :=
  js "Articulo 1" ++
    EvidenceIdentity.marker ⟨sampleUuid 1, sampleUuid 2, sampleUuid 3⟩ markerOpening

/-- The forged label gives an identity although no valid ids are bound to it. -/
theorem forged_identity_read :
    evidenceIdentityFromCitationLabel
        (bindCitationLabelToEvidenceIdentity forgedLabel ⟨[], [], []⟩) =
      some ⟨sampleUuid 1, sampleUuid 2, sampleUuid 3⟩ ∧
    ¬ ∀ label ids, evidenceIdentityFromCitationLabel
        (bindCitationLabelToEvidenceIdentity label ids) = boundIdentity ids := by
  have hread : evidenceIdentityFromCitationLabel
      (bindCitationLabelToEvidenceIdentity forgedLabel ⟨[], [], []⟩) =
        some ⟨sampleUuid 1, sampleUuid 2, sampleUuid 3⟩ := by decide +kernel
  refine ⟨hread, fun hall => ?_⟩
  have hnone := (hall forgedLabel ⟨[], [], []⟩).symm.trans hread
  exact absurd hnone (by decide +kernel)

end Reading

end Api
