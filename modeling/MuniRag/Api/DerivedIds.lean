import MuniRag.Api.CanonicalJson

/-!
# Normalised texts and derived identifiers

The two helpers that the evidence code and the mapper of procedure queries share: the
comparison of texts up to accents, letter case and spaces, and the identifiers that are
derived from a digest.  Unicode normalisation, case mapping, SHA-256 and `localeCompare`
belong to the platform and are parameters.
-/

namespace Api

/-- What the platform computes on texts; `sha256` gives the bytes of the digest. -/
structure Platform where
  nfd : JsString → JsString
  toLowerCase : JsString → JsString
  sha256 : JsString → List UInt8
  collation : CanonicalJson.Collation

/-- The marks `[\u0300-\u036f]`. -/
def isCombiningMark (u : UInt16) : Bool := 0x300 ≤ u && u ≤ 0x36f

/-- `.replace(/\s+/g, " ")` after a unit that was a space, or was not. -/
def collapseFrom : Bool → JsString → JsString
  | _, [] => []
  | afterSpace, u :: rest =>
      if isWhitespace u then
        if afterSpace then collapseFrom true rest else 0x20 :: collapseFrom true rest
      else u :: collapseFrom false rest

def collapseSpaces (text : JsString) : JsString := collapseFrom false text

/-- A number in a template literal; only integers occur. -/
def numberText (n : Int) : JsString := js (toString n)

variable (platform : Platform)

def normalized (value : JsString) : JsString :=
  trim (collapseSpaces (platform.toLowerCase
    ((platform.nfd value).filter fun u => !isCombiningMark u)))

/-- The first sixteen bytes of the digest with the version and the variant of a UUID. -/
def uuidBytes (digest : List UInt8) : List UInt8 :=
  let bytes := digest.take 16
  let bytes := bytes.set 6 ((bytes.getD 6 0 &&& 0x0f) ||| 0x50)
  bytes.set 8 ((bytes.getD 8 0 &&& 0x3f) ||| 0x80)

def deterministicUuid (seed : JsString) : JsString :=
  uuidDashed ((uuidBytes (platform.sha256 seed)).flatMap fun byte =>
    [byte.toNat / 16, byte.toNat % 16])

/-! ## Texts of numbers -/

/-- A text in UTF-16 starts with one character only. -/
theorem utf16_append_inj {c d : Char} {xs ys : JsString} (h : utf16 c ++ xs = utf16 d ++ ys) :
    c = d ∧ xs = ys := by
  have hc : c.toNat < 0xd800 ∨ (0xdfff < c.toNat ∧ c.toNat < 0x110000) := c.valid
  have hd : d.toNat < 0xd800 ∨ (0xdfff < d.toNat ∧ d.toNat < 0x110000) := d.valid
  have hsame : c.toNat = d.toNat → c = d := fun h => Char.ext (UInt32.toNat_inj.mp h)
  unfold utf16 at h
  by_cases hcb : c.toNat < 0x10000
  · by_cases hdb : d.toNat < 0x10000
    · simp only [hcb, hdb, if_true, List.singleton_append, List.cons.injEq] at h
      have hunit := congrArg UInt16.toNat h.1
      simp only [Nat.toUInt16_eq, UInt16.toNat_ofNat'] at hunit
      exact ⟨hsame (by omega), h.2⟩
    · simp only [hcb, hdb, if_true, if_false, List.cons_append, List.nil_append,
        List.cons.injEq] at h
      have hunit := congrArg UInt16.toNat h.1
      simp only [Nat.toUInt16_eq, UInt16.toNat_ofNat'] at hunit
      omega
  · by_cases hdb : d.toNat < 0x10000
    · simp only [hcb, hdb, if_true, if_false, List.cons_append, List.nil_append,
        List.cons.injEq] at h
      have hunit := congrArg UInt16.toNat h.1
      simp only [Nat.toUInt16_eq, UInt16.toNat_ofNat'] at hunit
      omega
    · simp only [hcb, hdb, if_false, List.cons_append, List.nil_append, List.cons.injEq] at h
      have hhigh := congrArg UInt16.toNat h.1
      have hlow := congrArg UInt16.toNat h.2.1
      simp only [Nat.toUInt16_eq, UInt16.toNat_ofNat'] at hhigh hlow
      exact ⟨hsame (by omega), h.2.2⟩

theorem utf16_ne_nil (c : Char) : utf16 c ≠ [] := by
  unfold utf16
  by_cases hc : c.toNat < 0x10000 <;> simp [hc]

theorem flatMap_utf16_injective {xs ys : List Char} (h : xs.flatMap utf16 = ys.flatMap utf16) :
    xs = ys := by
  induction xs generalizing ys with
  | nil =>
      cases ys with
      | nil => rfl
      | cons d ys => exact absurd (List.append_eq_nil_iff.mp h.symm).1 (utf16_ne_nil d)
  | cons c xs ih =>
      cases ys with
      | nil => exact absurd (List.append_eq_nil_iff.mp h).1 (utf16_ne_nil c)
      | cons d ys =>
          obtain ⟨rfl, hrest⟩ := utf16_append_inj h
          rw [ih hrest]

theorem js_injective {s t : String} (h : js s = js t) : s = t :=
  String.toList_inj.mp (flatMap_utf16_injective h)

/-- Digits of numbers tell the numbers apart. -/
theorem repr_injective {m n : Nat} (h : m.repr = n.repr) : m = n := by
  have hdigits : Nat.toDigits 10 m = Nat.toDigits 10 n := by
    rw [← Nat.toList_repr, ← Nat.toList_repr, h]
  calc m = Nat.ofDigitChars 10 (Nat.toDigits 10 m) 0 := Nat.ofDigitChars_ten_toDigits.symm
    _ = Nat.ofDigitChars 10 (Nat.toDigits 10 n) 0 := by rw [hdigits]
    _ = n := Nat.ofDigitChars_ten_toDigits

theorem negative_ne_repr (m n : Nat) : "-" ++ m.repr ≠ n.repr := by
  intro h
  have hmem : '-' ∈ Nat.toDigits 10 n := by
    rw [← Nat.toList_repr, ← h, String.toList_append]
    exact List.mem_append_left _ List.mem_cons_self
  exact absurd (Nat.isDigit_of_mem_toDigits (by decide) (by decide) hmem) (by decide)

theorem numberText_injective {m n : Int} (h : numberText m = numberText n) : m = n := by
  have htext : m.repr = n.repr := js_injective h
  cases m with
  | ofNat m =>
      cases n with
      | ofNat n => exact congrArg Int.ofNat (repr_injective htext)
      | negSucc n => exact absurd htext.symm (negative_ne_repr _ _)
  | negSucc m =>
      cases n with
      | ofNat n => exact absurd htext (negative_ne_repr _ _)
      | negSucc n =>
          have hsucc : m.succ = n.succ :=
            repr_injective (String.append_right_inj "-" |>.mp htext)
          rw [Nat.succ.inj hsucc]

theorem isDecimalDigit_of_mem_repr {m : Nat} {u : UInt16} (h : u ∈ js m.repr) :
    isDecimalDigit u = true := by
  obtain ⟨c, hc, hunit⟩ := List.mem_flatMap.mp h
  rw [Nat.toList_repr] at hc
  have hdigit := Nat.isDigit_of_mem_toDigits (by decide) (by decide) hc
  rw [Char.isDigit, Bool.and_eq_true, decide_eq_true_eq, decide_eq_true_eq] at hdigit
  have hlow : 48 ≤ c.toNat := UInt32.le_iff_toNat_le.mp hdigit.1
  have hhigh : c.toNat ≤ 57 := UInt32.le_iff_toNat_le.mp hdigit.2
  have hsmall : c.toNat < 0x10000 := by omega
  rw [utf16, if_pos hsmall, List.mem_singleton] at hunit
  have hvalue : u.toNat = c.toNat := by
    rw [hunit, Nat.toUInt16_eq, UInt16.toNat_ofNat', Nat.mod_eq_of_lt hsmall]
  rw [isDecimalDigit, Bool.and_eq_true, decide_eq_true_eq, decide_eq_true_eq]
  constructor
  · rw [UInt16.le_iff_toNat_le, hvalue]
    exact hlow
  · rw [UInt16.le_iff_toNat_le, hvalue]
    exact hhigh

/-- Texts of numbers are made of digits and a sign. -/
theorem mem_numberText {n : Int} {u : UInt16} (h : u ∈ numberText n) :
    isDecimalDigit u = true ∨ u = 0x2d := by
  cases n with
  | ofNat n => exact .inl (isDecimalDigit_of_mem_repr h)
  | negSucc n =>
      change u ∈ js ("-" ++ (n + 1).repr) at h
      rw [js, String.toList_append, List.flatMap_append] at h
      rcases List.mem_append.mp h with h | h
      · exact .inr (List.mem_singleton.mp h)
      · exact .inl (isDecimalDigit_of_mem_repr h)

/-! ## A platform for sample runs -/

/-- Texts in the order of their code units. -/
def unitCollation : CanonicalJson.Collation where
  localeCompare left right := compare left right
  swap _ _ := Std.OrientedCmp.eq_swap
  trans left middle right hleft hright := by
    simp only [ne_eq, Ordering.ne_gt_iff_isLE] at hleft hright ⊢
    exact Std.TransCmp.isLE_trans hleft hright

/-- Bytes given by their hexadecimal digits. -/
def bytesOf : List Nat → List UInt8
  | high :: low :: rest => (16 * high + low).toUInt8 :: bytesOf rest
  | _ => []

/-- On texts of ASCII, with the digests that the table lists. -/
def samplePlatform (digests : List (JsString × JsString)) : Platform where
  nfd := id
  toLowerCase := List.map lowerUnit
  sha256 seed := bytesOf (((digests.lookup seed).getD []).filterMap hexDigit)
  collation := unitCollation

end Api
