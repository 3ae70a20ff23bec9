import Mathlib.Tactic

/-!
# JavaScript texts and identifiers

A JavaScript string is the list of its UTF-16 code units; slicing, lengths and
regular expressions of the source all count these units.  A UUID is its
128-bit value: the program lower-cases every UUID before it stores or compares
it, PostgreSQL orders UUIDs by that value, and two UUID texts that differ in
letter case only have one value (`uuidValue_lower`).
-/

/-- A JavaScript string, as its UTF-16 code units. -/
abbrev JsString := List UInt16

/-- A UUID, as its 128-bit value. -/
abbrev Uuid := Nat

/-- Texts, and pairs of identifiers, are looked up in lists by one instance each. -/
instance : LawfulBEq JsString := inferInstance

instance : LawfulBEq (Uuid × Uuid) := inferInstance

/-- An instant, in milliseconds since the epoch. -/
abbrev Time := Int

/-- A date text as `Date.parse` reads it: `none` where that gives `NaN`. -/
abbrev DateText := Option Time

/-- The code units of one Unicode scalar value. -/
def utf16 (c : Char) : JsString :=
  let n := c.toNat
  if n < 0x10000 then [n.toUInt16]
  else [(0xd800 + (n - 0x10000) / 0x400).toUInt16,
    (0xdc00 + (n - 0x10000) % 0x400).toUInt16]

/-- A literal of the source as a JavaScript string. -/
def js (s : String) : JsString := s.toList.flatMap utf16

/-- The number of bytes of a string in UTF-8: a surrogate pair takes four, a
lone surrogate the three of its replacement character. -/
def utf8Length : JsString → Nat
  | [] => 0
  | [u] => if u < 0x80 then 1 else if u < 0x800 then 2 else 3
  | u :: v :: rest =>
      if 0xd800 ≤ u && u ≤ 0xdbff && 0xdc00 ≤ v && v ≤ 0xdfff then 4 + utf8Length rest
      else (if u < 0x80 then 1 else if u < 0x800 then 2 else 3) + utf8Length (v :: rest)

/-- The white space that `\s` matches and `trim` removes. -/
def isWhitespace (u : UInt16) : Bool :=
  (9 ≤ u && u ≤ 13) || u == 0x20 || u == 0xa0 || u == 0x1680 ||
    (0x2000 ≤ u && u ≤ 0x200a) || u == 0x2028 || u == 0x2029 || u == 0x202f ||
    u == 0x205f || u == 0x3000 || u == 0xfeff

/-- `String.prototype.trim`. -/
def trim (s : JsString) : JsString :=
  ((s.dropWhile isWhitespace).reverse.dropWhile isWhitespace).reverse

def isLowerLetter (u : UInt16) : Bool := 0x61 ≤ u && u ≤ 0x7a

def isUpperLetter (u : UInt16) : Bool := 0x41 ≤ u && u ≤ 0x5a

def isDecimalDigit (u : UInt16) : Bool := 0x30 ≤ u && u ≤ 0x39

/-- The marks `.`, `_`, `:` and `-`. -/
def isKeyMark (u : UInt16) : Bool := u == 0x2e || u == 0x5f || u == 0x3a || u == 0x2d

/-- The texts of `^[a-z0-9][a-z0-9._:-]{2,127}$`, the pattern of every key column. -/
def isKeyText (key : JsString) : Bool :=
  decide (3 ≤ key.length ∧ key.length ≤ 128) &&
    key.head?.any (fun u => isLowerLetter u || isDecimalDigit u) &&
    key.all fun u => isLowerLetter u || isDecimalDigit u || isKeyMark u

/-- The texts of `^[A-Za-z0-9][A-Za-z0-9._:-]{0,127}$`. -/
def isOpaqueId (id : JsString) : Bool :=
  decide (id.length ≤ 128) &&
    id.head?.any (fun u => isLowerLetter u || isUpperLetter u || isDecimalDigit u) &&
    id.all fun u => isLowerLetter u || isUpperLetter u || isDecimalDigit u || isKeyMark u

/-- The texts of `^[a-z][a-z0-9_]{0,63}$`. -/
def isCodeText (code : JsString) : Bool :=
  decide (code.length ≤ 64) && code.head?.any isLowerLetter &&
    code.all fun u => isLowerLetter u || isDecimalDigit u || u == 0x5f

/-- The value of one hexadecimal digit, of either case. -/
def hexDigit (u : UInt16) : Option Nat :=
  if 0x30 ≤ u && u ≤ 0x39 then some (u - 0x30).toNat
  else if 0x61 ≤ u && u ≤ 0x66 then some ((u - 0x61).toNat + 10)
  else if 0x41 ≤ u && u ≤ 0x46 then some ((u - 0x41).toNat + 10)
  else none

/-- `String.prototype.toLowerCase` on the ASCII letters. -/
def lowerUnit (u : UInt16) : UInt16 :=
  if 0x41 ≤ u && u ≤ 0x5a then u + 0x20 else u

/-- The digits of `8-4-4-4-12` hexadecimal groups, if the text has that shape. -/
def uuidDigits (s : JsString) : Option (List Nat) :=
  if s.map (· == 0x2d) = (List.range 36).map (fun i => decide (i ∈ [8, 13, 18, 23])) then
    (s.filter (· != 0x2d)).mapM hexDigit
  else none

/-- The value that 32 hexadecimal digits denote. -/
def ofDigits (digits : List Nat) : Nat :=
  digits.foldl (fun n d => 16 * n + d) 0

/-- `isCanonicalUuid` of `security/tenant.ts`: the value of a UUID text of any
version, in either letter case. -/
def uuidValue (s : JsString) : Option Uuid :=
  (uuidDigits s).map ofDigits

/-- The lower-case hexadecimal digit of a value below 16. -/
def hexUnit (d : Nat) : UInt16 :=
  if d < 10 then (0x30 + d).toUInt16 else (0x57 + d).toUInt16

/-- Hexadecimal digits in groups of `8-4-4-4-12`. -/
def uuidDashed (digits : List Nat) : JsString :=
  (digits.take 8).map hexUnit ++ [0x2d] ++ ((digits.drop 8).take 4).map hexUnit ++ [0x2d] ++
    ((digits.drop 12).take 4).map hexUnit ++ [0x2d] ++ ((digits.drop 16).take 4).map hexUnit ++
    [0x2d] ++ (digits.drop 20).map hexUnit

/-- The lower-case text of a UUID, as PostgreSQL and `toLowerCase` give it. -/
def uuidText (id : Uuid) : JsString :=
  uuidDashed ((List.range 32).map fun i => id / 16 ^ (31 - i) % 16)

theorem lowerUnit_upper {u : UInt16} (h : 0x41 ≤ u ∧ u ≤ 0x5a) : lowerUnit u = u + 0x20 := by
  simp [lowerUnit, h.1, h.2]

theorem lowerUnit_other {u : UInt16} (h : ¬ (0x41 ≤ u ∧ u ≤ 0x5a)) : lowerUnit u = u := by
  rw [lowerUnit, if_neg (by simpa only [Bool.and_eq_true, decide_eq_true_eq] using h)]

/-- An upper-case letter lies 32 places below its lower-case form. -/
theorem toNat_add_case {u : UInt16} (h : 0x41 ≤ u ∧ u ≤ 0x5a) :
    0x41 ≤ u.toNat ∧ u.toNat ≤ 0x5a ∧ (u + 0x20).toNat = u.toNat + 0x20 := by
  have h1 : 0x41 ≤ u.toNat := UInt16.le_iff_toNat_le.mp h.1
  have h2 : u.toNat ≤ 0x5a := UInt16.le_iff_toNat_le.mp h.2
  refine ⟨h1, h2, ?_⟩
  rw [UInt16.toNat_add]
  simp only [UInt16.reduceToNat]
  omega

theorem hexDigit_lower (u : UInt16) : hexDigit (lowerUnit u) = hexDigit u := by
  by_cases hupper : 0x41 ≤ u ∧ u ≤ 0x5a
  · obtain ⟨h1, h2, hadd⟩ := toNat_add_case hupper
    have hsub : u + 0x20 - 0x61 = u - 0x41 := by
      apply UInt16.toNat_inj.mp
      simp only [UInt16.toNat_sub, hadd, UInt16.reduceToNat]
      omega
    simp only [lowerUnit_upper hupper, hexDigit, hsub, UInt16.le_iff_toNat_le,
      Bool.and_eq_true, decide_eq_true_eq, hadd, UInt16.reduceToNat]
    split_ifs <;> first | rfl | omega
  · rw [lowerUnit_other hupper]

theorem lowerUnit_dash (u : UInt16) : (lowerUnit u == 0x2d) = (u == 0x2d) := by
  by_cases hupper : 0x41 ≤ u ∧ u ≤ 0x5a
  · obtain ⟨h1, h2, hadd⟩ := toNat_add_case hupper
    have hne : u ≠ 0x2d := by rintro rfl; exact absurd h1 (by decide)
    have hne' : u + 0x20 ≠ 0x2d := by
      intro h
      have := congrArg UInt16.toNat h
      simp only [hadd, UInt16.reduceToNat] at this
      omega
    rw [lowerUnit_upper hupper, beq_eq_false_iff_ne.mpr hne, beq_eq_false_iff_ne.mpr hne']
  · rw [lowerUnit_other hupper]

/-- Lower-casing a text changes neither its shape nor its digits. -/
theorem uuidDigits_lower (s : JsString) : uuidDigits (s.map lowerUnit) = uuidDigits s := by
  have hshape : (s.map lowerUnit).map (· == 0x2d) = s.map (· == 0x2d) := by
    simp only [List.map_map]
    exact List.map_congr_left fun u _ => lowerUnit_dash u
  have hdigits : ((s.map lowerUnit).filter (· != 0x2d)).mapM hexDigit =
      (s.filter (· != 0x2d)).mapM hexDigit := by
    clear hshape
    induction s with
    | nil => rfl
    | cons u s ih =>
        have hkeep : (lowerUnit u != 0x2d) = (u != 0x2d) := by simp only [bne, lowerUnit_dash]
        by_cases hu : (u != 0x2d) = true
        · simp [hkeep, hu, hexDigit_lower, List.mapM_cons, ih]
        · simp [hkeep, hu, ih]
  simp only [uuidDigits, hshape, hdigits]

/-- **A UUID's letter case is not part of it.** -/
theorem uuidValue_lower (s : JsString) : uuidValue (s.map lowerUnit) = uuidValue s := by
  simp only [uuidValue, uuidDigits_lower]

/-! ## Reading a UUID text back -/

theorem hexDigit_hexUnit {d : Nat} (h : d < 16) : hexDigit (hexUnit d) = some d := by
  interval_cases d <;> rfl

theorem hexUnit_ne_dash {d : Nat} (h : d < 16) : hexUnit d ≠ 0x2d := by
  interval_cases d <;> decide

theorem ofDigits_concat (digits : List Nat) (d : Nat) :
    ofDigits (digits ++ [d]) = 16 * ofDigits digits + d := by
  simp [ofDigits]

theorem ofDigits_range (n k : Nat) :
    ofDigits ((List.range (k + 1)).map fun i => n / 16 ^ (k - i) % 16) = n % 16 ^ (k + 1) := by
  induction k generalizing n with
  | zero => simp [ofDigits]
  | succ k ih =>
      have hinit : (List.range (k + 1)).map (fun i => n / 16 ^ (k + 1 - i) % 16) =
          (List.range (k + 1)).map fun i => n / 16 / 16 ^ (k - i) % 16 := by
        refine List.map_congr_left fun i hi => ?_
        rw [Nat.div_div_eq_div_mul, ← Nat.pow_succ', Nat.succ_sub (by simpa [Nat.lt_succ_iff] using hi)]
      rw [List.range_succ, List.map_append, hinit, List.map_singleton, ofDigits_concat, ih,
        Nat.sub_self, pow_zero, Nat.div_one, pow_succ' 16 (k + 1), Nat.mod_mul]
      exact Nat.add_comm _ _

theorem mapM_hexUnit {digits : List Nat} (h : ∀ d ∈ digits, d < 16) :
    (digits.map hexUnit).mapM hexDigit = some digits := by
  induction digits with
  | nil => rfl
  | cons d digits ih =>
      obtain ⟨hd, hdigits⟩ := List.forall_mem_cons.mp h
      simp [hexDigit_hexUnit hd, ih hdigits]

theorem filter_hexUnit {digits : List Nat} (h : ∀ d ∈ digits, d < 16) :
    (digits.map hexUnit).filter (· != 0x2d) = digits.map hexUnit := by
  refine List.filter_eq_self.mpr fun u hu => ?_
  obtain ⟨d, hd, rfl⟩ := List.mem_map.mp hu
  simpa using hexUnit_ne_dash (h d hd)

theorem shape_hexUnit {digits : List Nat} (h : ∀ d ∈ digits, d < 16) :
    (digits.map hexUnit).map (· == 0x2d) = List.replicate digits.length false := by
  rw [List.map_map, List.eq_replicate_iff]
  refine ⟨by simp, fun b hb => ?_⟩
  obtain ⟨d, hd, rfl⟩ := List.mem_map.mp hb
  simpa using hexUnit_ne_dash (h d hd)

theorem uuidDigits_dashed {digits : List Nat} (hlength : digits.length = 32)
    (h : ∀ d ∈ digits, d < 16) : uuidDigits (uuidDashed digits) = some digits := by
  have hpart (i n : Nat) : ∀ d ∈ (digits.drop i).take n, d < 16 := fun d hd =>
    h d (List.mem_of_mem_drop (List.mem_of_mem_take hd))
  have hfirst : ∀ d ∈ digits.take 8, d < 16 := fun d hd => h d (List.mem_of_mem_take hd)
  have hlast : ∀ d ∈ digits.drop 20, d < 16 := fun d hd => h d (List.mem_of_mem_drop hd)
  have hshape : (uuidDashed digits).map (· == 0x2d) =
      (List.range 36).map (fun i => decide (i ∈ [8, 13, 18, 23])) := by
    simp only [uuidDashed, List.map_append, shape_hexUnit (hpart _ _), shape_hexUnit hfirst,
      shape_hexUnit hlast, List.length_take, List.length_drop, hlength]
    decide
  have hfilter : (uuidDashed digits).filter (· != 0x2d) = digits.map hexUnit := by
    simp only [uuidDashed, List.filter_append, filter_hexUnit (hpart _ _), filter_hexUnit hfirst,
      filter_hexUnit hlast]
    have hsplit (i n : Nat) :
        ((digits.drop i).take n).map hexUnit ++ (digits.drop (i + n)).map hexUnit =
          (digits.drop i).map hexUnit := by
      rw [← List.drop_drop, ← List.map_append, List.take_append_drop]
    simp only [List.filter_cons, List.filter_nil, List.append_assoc, bne_self_eq_false,
      Bool.false_eq_true, if_false, List.nil_append]
    rw [hsplit 16 4, hsplit 12 4, hsplit 8 4, ← List.map_append, List.take_append_drop]
  rw [uuidDigits, if_pos hshape, hfilter, mapM_hexUnit h]

/-- **Round trip.**  The text of a UUID reads back as that UUID. -/
theorem uuidValue_uuidText {id : Uuid} (h : id < 16 ^ 32) : uuidValue (uuidText id) = some id := by
  rw [uuidValue, uuidText, uuidDigits_dashed (by simp) (by simp; omega), Option.map_some, ofDigits_range id 31,
    Nat.mod_eq_of_lt h]

theorem hexDigit_lt {u : UInt16} {d : Nat} (h : hexDigit u = some d) : d < 16 := by
  have key : ∀ lo hi : UInt16, lo ≤ u → u ≤ hi → (u - lo).toNat ≤ (hi - lo).toNat := by
    intro lo hi h1 h2
    have h1 := UInt16.le_iff_toNat_le.mp h1
    have h2 := UInt16.le_iff_toNat_le.mp h2
    rw [UInt16.toNat_sub_of_le _ _ (UInt16.le_iff_toNat_le.mpr h1), UInt16.toNat_sub_of_le _ _ (UInt16.le_iff_toNat_le.mpr (h1.trans h2))]
    omega
  simp only [hexDigit, Bool.and_eq_true, decide_eq_true_eq] at h
  split_ifs at h with h1 h2 h3
  · obtain rfl := Option.some.inj h
    exact (key _ _ h1.1 h1.2).trans_lt (by decide)
  · obtain rfl := Option.some.inj h
    have hfive : (u - 97).toNat ≤ 5 := key _ _ h2.1 h2.2
    omega
  · obtain rfl := Option.some.inj h
    have hfive : (u - 65).toNat ≤ 5 := key _ _ h3.1 h3.2
    omega

theorem ofDigits_lt {digits : List Nat} (h : ∀ d ∈ digits, d < 16) :
    ofDigits digits < 16 ^ digits.length := by
  induction digits using List.reverseRecOn with
  | nil => simp [ofDigits]
  | append_singleton digits d ih =>
      have hd := h d (by simp)
      have := ih fun d hd => h d (by simp [hd])
      rw [ofDigits_concat, List.length_append, List.length_singleton, Nat.pow_succ]
      omega

theorem mapM_hexDigit_lt {s : JsString} {digits : List Nat} (h : s.mapM hexDigit = some digits) :
    digits.length = s.length ∧ ∀ d ∈ digits, d < 16 := by
  induction s generalizing digits with
  | nil =>
      obtain rfl : [] = digits := by simpa using h
      simp
  | cons u s ih =>
      simp only [List.mapM_cons, Option.bind_eq_bind, Option.bind_eq_some_iff] at h
      obtain ⟨d, hd, rest, hrest, hdigits⟩ := h
      obtain rfl := Option.some.inj hdigits
      obtain ⟨hlength, hlt⟩ := ih hrest
      exact ⟨by simp [hlength], List.forall_mem_cons.mpr ⟨hexDigit_lt hd, hlt⟩⟩

theorem uuidValue_lt {s : JsString} {id : Uuid} (h : uuidValue s = some id) : id < 16 ^ 32 := by
  obtain ⟨digits, hdigits, rfl⟩ := Option.map_eq_some_iff.mp h
  rw [uuidDigits] at hdigits
  split_ifs at hdigits with hshape
  obtain ⟨hlength, hlt⟩ := mapM_hexDigit_lt hdigits
  have hcount : (s.filter (· != 0x2d)).length = 32 := by
    have h1 : ((s.map (· == 0x2d)).filter (! ·)).length = (s.filter (· != 0x2d)).length := by
      rw [List.filter_map, List.length_map]
      rfl
    rw [← h1, hshape]
    decide
  simpa [hlength, hcount] using ofDigits_lt hlt

/-- The UUID text `00000000-0000-4000-8000-00000000000d` of a digit `d`, for sample runs. -/
def sampleUuid (d : Nat) : JsString := uuidText (0x40008000000000000000 + d)

example : uuidValue (js "0000000A-0000-4000-8000-00000000000f") =
    uuidValue (js "0000000a-0000-4000-8000-00000000000F") := by decide
