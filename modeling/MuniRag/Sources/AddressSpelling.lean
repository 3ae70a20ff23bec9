import MuniRag.Sources.NetworkAddress

/-!
# Which spellings are judged right

`Address.IsPublic` is what the judgement is for, on the address itself.  IPv4
addresses are judged right.  The patterns of `isPublicNetworkAddress` see the text
of an IPv6 address: they miss non-public addresses that are spelled in another way
than the patterns expect, and they take a short first group such as `fc` for the
block `fc00::/7` (`judged_iff`).
-/

namespace NetworkAddress

/-- The addresses that agree with `base` in the first `bits` bits. -/
def InBlock {w : Nat} (value base : BitVec w) (bits : Nat) : Prop :=
  value.toNat / 2 ^ (w - bits) = base.toNat / 2 ^ (w - bits)

def IsPublicV4 (value : BitVec 32) : Prop :=
  ∀ range ∈ reservedRanges, ∀ base, parseIPv4 range.1 = some base → ¬ InBlock value base range.2

/-- The IPv6 form of an IPv4 address. -/
def mappedAddress (value : BitVec 32) : BitVec 128 :=
  BitVec.ofNat 128 (0xffff * 2 ^ 32 + value.toNat)

/-- `fc00::/7`, `fe80::/10` and `ff00::/8`. -/
def IsLocal (value : BitVec 128) : Prop :=
  InBlock value (0xfc00 <<< 112) 7 ∨ InBlock value (0xfe80 <<< 112) 10 ∨
    InBlock value (0xff00 <<< 112) 8

/-- `2001:db8::/32`. -/
def IsDocumentation (value : BitVec 128) : Prop := InBlock value (0x20010db8 <<< 96) 32

def Address.IsPublic : Address → Prop
  | .v4 value => IsPublicV4 value
  | .v6 value => value ≠ 0 ∧ value ≠ 1 ∧ (∀ inner, value = mappedAddress inner → IsPublicV4 inner) ∧
      ¬ IsLocal value ∧ ¬ IsDocumentation value

/-- The text up to the first colon. -/
def firstPiece (text : JsString) : JsString := text.takeWhile (· != colon)

/-- The lower-case spellings that the patterns on the text of an IPv6 address expect: `::` and
`::1` themselves, the dotted tail behind `::ffff:` for a mapped address that is not public, no
leading zero in `2001:db8:`, and four digits in a first group that begins like a local one. -/
def PlainlySpelled (text : JsString) : Address → Prop
  | .v4 _ => True
  | .v6 value =>
      (value = 0 → text = js "::") ∧ (value = 1 → text = js "::1") ∧
      (∀ inner, value = mappedAddress inner → ¬ IsPublicV4 inner →
        (mappedMatch text).isSome = true) ∧
      (IsDocumentation value → text.take 9 = js "2001:db8:") ∧
      (startsLocal text = true → (firstPiece text).length = 4)

/-! ## IPv4 -/

theorem decimal_of_readByte {part : JsString} {n : Nat} (h : readByte part = some n) :
    decimal part = some n ∧ n ≤ 255 := by
  obtain ⟨hdecimal, htest⟩ := Option.filter_eq_some_iff.mp h
  rw [Bool.and_eq_true, decide_eq_true_eq] at htest
  exact ⟨hdecimal, htest.1⟩

theorem parseIPv4_eq_some_iff {text : JsString} {value : BitVec 32} :
    parseIPv4 text = some value ↔ ∃ a b c d, (text.splitOn dot).map readByte =
      [some a, some b, some c, some d] ∧
        value = BitVec.ofNat 32 (a * 2 ^ 24 + b * 2 ^ 16 + c * 2 ^ 8 + d) := by
  unfold parseIPv4
  split
  · rename_i a b c d hparts
    constructor
    · intro h
      exact ⟨a, b, c, d, hparts, (Option.some.inj h).symm⟩
    · rintro ⟨a', b', c', d', hparts', rfl⟩
      rw [hparts] at hparts'
      obtain ⟨rfl, rfl, rfl, rfl⟩ : a = a' ∧ b = b' ∧ c = c' ∧ d = d' := by
        simpa using hparts'
      rfl
  · rename_i hparts
    constructor
    · intro h
      exact absurd h (by simp)
    · rintro ⟨a, b, c, d, heq, -⟩
      exact absurd heq (hparts a b c d)

/-- The shifts of `ipv4` compute the value that the dotted form denotes. -/
theorem ipv4_of_parse {text : JsString} {value : BitVec 32} (h : parseIPv4 text = some value) :
    ipv4 text = some value := by
  obtain ⟨a, b, c, d, hparts, rfl⟩ := parseIPv4_eq_some_iff.mp h
  obtain ⟨p, rest, hsplit, hp, hrest⟩ := List.map_eq_cons_iff.mp hparts
  obtain ⟨q, rest, rfl, hq, hrest⟩ := List.map_eq_cons_iff.mp hrest
  obtain ⟨r, rest, rfl, hr, hrest⟩ := List.map_eq_cons_iff.mp hrest
  obtain ⟨t, rest, rfl, ht, hrest⟩ := List.map_eq_cons_iff.mp hrest
  rw [List.map_eq_nil_iff] at hrest
  subst hrest
  obtain ⟨hp, ha⟩ := decimal_of_readByte hp
  obtain ⟨hq, hb⟩ := decimal_of_readByte hq
  obtain ⟨hr, hc⟩ := decimal_of_readByte hr
  obtain ⟨ht, hd⟩ := decimal_of_readByte ht
  have hdecimals : (text.splitOn dot).map decimal = [some a, some b, some c, some d] := by
    rw [hsplit, List.map_cons, List.map_cons, List.map_cons, List.map_cons, List.map_nil, hp, hq,
      hr, ht]
  simp only [ipv4, hdecimals, if_pos (show a ≤ 255 ∧ b ≤ 255 ∧ c ≤ 255 ∧ d ≤ 255 from
    ⟨ha, hb, hc, hd⟩)]
  refine congrArg some (BitVec.eq_of_toNat_eq ?_)
  simp only [BitVec.toNat_add, BitVec.toNat_shiftLeft, BitVec.toNat_ofNat, Nat.shiftLeft_eq]
  omega

/-- A masked comparison compares quotients. -/
theorem masked_eq_iff {w : Nat} (value first : BitVec w) (k : Nat) :
    value &&& BitVec.allOnes w <<< k = first &&& BitVec.allOnes w <<< k ↔
      value.toNat / 2 ^ k = first.toNat / 2 ^ k := by
  have hmask (v : BitVec w) : v &&& BitVec.allOnes w <<< k = (v >>> k) <<< k := by
    ext i hi
    simp only [BitVec.getElem_and, BitVec.getElem_shiftLeft, BitVec.getElem_allOnes,
      BitVec.getElem_ushiftRight]
    by_cases hk : i < k
    · simp [hk]
    · simp [hk, Nat.add_sub_cancel' (Nat.le_of_not_lt hk), BitVec.getLsbD_eq_getElem hi]
  rw [hmask, hmask, ← Nat.shiftRight_eq_div_pow, ← Nat.shiftRight_eq_div_pow,
    ← BitVec.toNat_ushiftRight, ← BitVec.toNat_ushiftRight, BitVec.toNat_inj]
  constructor
  · intro h
    have hback (v : BitVec w) : ((v >>> k) <<< k) >>> k = v >>> k := by
      ext i hi
      simp only [BitVec.getElem_ushiftRight, BitVec.getLsbD_shiftLeft]
      by_cases hlt : k + i < w
      · simp [hlt]
      · simp [hlt, BitVec.getLsbD_of_ge v (k + i) (Nat.le_of_not_lt hlt)]
    rw [← hback value, h, hback first]
  · intro h
    rw [h]

theorem inRange_iff {value base : BitVec 32} {text : JsString} {bits : Nat}
    (hbase : parseIPv4 text = some base) (hbits : 0 < bits) :
    inRange value text bits = true ↔ InBlock value base bits := by
  simp only [inRange, ipv4_of_parse hbase, if_neg hbits.ne', beq_iff_eq]
  exact masked_eq_iff value base (32 - bits)

theorem reservedRanges_parsed : reservedRanges.all (fun range =>
    (parseIPv4 range.1).isSome && decide (0 < range.2)) = true := by
  decide

/-- Every IPv4 address is judged by its value. -/
theorem judged_v4 {text : JsString} {value : BitVec 32} (h : parseIPv4 text = some value) :
    isPublicNetworkAddress text = true ↔ IsPublicV4 value := by
  have hip : isIP text = 4 := by
    simp [isIP, parseAddress, h]
  rw [isPublicNetworkAddress, if_pos hip, ipv4_of_parse h]
  simp only [Bool.not_eq_true', List.any_eq_false, IsPublicV4]
  constructor
  · intro hno range hmem base hbase hin
    obtain ⟨-, hbits⟩ : (parseIPv4 range.1).isSome = true ∧ 0 < range.2 := by
      simpa using List.all_eq_true.mp reservedRanges_parsed range hmem
    exact hno range hmem ((inRange_iff hbase hbits).mpr hin)
  · intro hno range hmem hin
    obtain ⟨hsome, hbits⟩ : (parseIPv4 range.1).isSome = true ∧ 0 < range.2 := by
      simpa using List.all_eq_true.mp reservedRanges_parsed range hmem
    obtain ⟨base, hbase⟩ := Option.isSome_iff_exists.mp hsome
    exact hno range hmem base hbase ((inRange_iff hbase hbits).mp hin)

/-! ## Letter case -/

theorem isDecimalDigit_lowerUnit (u : UInt16) : isDecimalDigit (lowerUnit u) = isDecimalDigit u := by
  by_cases hu : 0x41 ≤ u ∧ u ≤ 0x5a
  · obtain ⟨hlow, hhigh, hadd⟩ := toNat_add_case hu
    rw [lowerUnit_upper hu]
    simp only [isDecimalDigit, UInt16.le_iff_toNat_le, hadd, UInt16.reduceToNat, Bool.and_eq_decide,
      decide_eq_decide, decide_eq_true_eq]
    omega
  · rw [lowerUnit_other hu]

theorem lowerUnit_digit {u : UInt16} (h : isDecimalDigit u = true) : lowerUnit u = u := by
  apply lowerUnit_other
  simp only [isDecimalDigit, Bool.and_eq_true, decide_eq_true_eq, UInt16.le_iff_toNat_le,
    UInt16.reduceToNat] at h ⊢
  omega

/-- A mark is left as it is, and nothing becomes a mark. -/
theorem lowerUnit_eq_mark {u c : UInt16} (hc : c = dot ∨ c = colon) : lowerUnit u = c ↔ u = c := by
  by_cases hu : 0x41 ≤ u ∧ u ≤ 0x5a
  · obtain ⟨hlow, hhigh, hadd⟩ := toNat_add_case hu
    rw [lowerUnit_upper hu]
    constructor
    · intro h
      have hnat := congrArg UInt16.toNat h
      rw [hadd] at hnat
      rcases hc with rfl | rfl
      · simp only [dot, UInt16.reduceToNat] at hnat
        omega
      · simp only [colon, UInt16.reduceToNat] at hnat
        omega
    · rintro rfl
      rcases hc with rfl | rfl
      · simp only [dot, UInt16.reduceToNat] at hlow
        omega
      · simp only [colon, UInt16.reduceToNat] at hlow
        omega
  · rw [lowerUnit_other hu]

theorem splitOn_lower {c : UInt16} (hc : c = dot ∨ c = colon) (text : JsString) :
    (lower text).splitOn c = (text.splitOn c).map lower :=
  Segments.splitOn_map fun _ => lowerUnit_eq_mark hc

theorem decimal_lower (text : JsString) : decimal (lower text) = decimal text := by
  have hall : (lower text).all isDecimalDigit = text.all isDecimalDigit := by
    rw [lower, List.all_map]
    exact congrArg (text.all ·) (funext isDecimalDigit_lowerUnit)
  by_cases htext : text ≠ [] ∧ text.all isDecimalDigit = true
  · have hsame : lower text = text :=
      List.map_congr_left (fun u hu => lowerUnit_digit (List.all_eq_true.mp htext.2 u hu)) |>.trans
        (List.map_id text)
    rw [hsame]
  · have hlower : ¬ (lower text ≠ [] ∧ (lower text).all isDecimalDigit = true) := by
      rw [hall, lower, Ne, List.map_eq_nil_iff]
      exact htext
    rw [decimal, decimal, if_neg htext, if_neg hlower]

theorem readByte_lower (part : JsString) : readByte (lower part) = readByte part := by
  cases hdecimal : decimal part with
  | none => simp only [readByte, decimal_lower, hdecimal, Option.filter_none]
  | some n =>
      have hdigits : part.all isDecimalDigit = true := by
        unfold decimal at hdecimal
        split at hdecimal
        · rename_i hpart
          exact hpart.2
        · exact absurd hdecimal (by simp)
      have hsame : lower part = part :=
        List.map_congr_left (fun u hu => lowerUnit_digit (List.all_eq_true.mp hdigits u hu)) |>.trans
          (List.map_id part)
      rw [hsame]

theorem parseIPv4_lower (text : JsString) : parseIPv4 (lower text) = parseIPv4 text := by
  have hparts : ((lower text).splitOn dot).map readByte = (text.splitOn dot).map readByte := by
    rw [splitOn_lower (.inl rfl), List.map_map]
    exact List.map_congr_left fun part _ => readByte_lower part
  rw [parseIPv4, parseIPv4, hparts]

theorem lower_nil_iff {text : JsString} : lower text = [] ↔ text = [] := List.map_eq_nil_iff

theorem readGroup_lower (piece : JsString) : readGroup (lower piece) = readGroup piece := by
  have hdigits : (lower piece).mapM hexDigit = piece.mapM hexDigit := by
    rw [lower, List.mapM_map]
    exact congrArg (piece.mapM ·) (funext hexDigit_lower)
  simp only [readGroup, hdigits, lower_length, ne_eq, lower_nil_iff]

theorem readPieces_lower (pieces : List JsString) :
    readPieces (pieces.map lower) = readPieces pieces := by
  fun_induction readPieces pieces with
  | case1 => rfl
  | case2 last value hvalue => simp only [List.map_cons, List.map_nil, readPieces, parseIPv4_lower, hvalue]
  | case3 last hvalue =>
      simp only [List.map_cons, List.map_nil, readPieces, parseIPv4_lower, hvalue, readGroup_lower]
  | case4 piece rest hrest ih =>
      cases rest with
      | nil => exact absurd rfl hrest
      | cons next rest =>
          rw [List.map_cons, List.map_cons] at *
          simp only [readPieces, readGroup_lower, ih]

theorem readFront_lower (text : JsString) : readFront (lower text) = readFront text := by
  have hsame : readGroup ∘ lower = readGroup := funext readGroup_lower
  simp only [readFront, lower_nil_iff, splitOn_lower (.inr rfl), List.mapM_map, hsame]

theorem readBack_lower (text : JsString) : readBack (lower text) = readBack text := by
  simp only [readBack, lower_nil_iff, splitOn_lower (.inr rfl), readPieces_lower]

theorem splitGap_lower (text : JsString) :
    splitGap (lower text) = (splitGap text).map fun parts => (lower parts.1, lower parts.2) := by
  fun_induction splitGap text with
  | case1 u v rest hgap =>
      have hlower : lowerUnit u = colon ∧ lowerUnit v = colon := by
        rwa [lowerUnit_eq_mark (.inr rfl), lowerUnit_eq_mark (.inr rfl)]
      show splitGap (lowerUnit u :: lowerUnit v :: lower rest) = _
      rw [splitGap, if_pos hlower]
      rfl
  | case2 u v rest hgap ih =>
      have hlower : ¬ (lowerUnit u = colon ∧ lowerUnit v = colon) := by
        rwa [lowerUnit_eq_mark (.inr rfl), lowerUnit_eq_mark (.inr rfl)]
      show splitGap (lowerUnit u :: lowerUnit v :: lower rest) = _
      rw [splitGap, if_neg hlower]
      show (splitGap (lower (v :: rest))).map _ = _
      rw [ih, Option.map_map, Option.map_map]
      rfl
  | case3 text hshort =>
      match text, hshort with
      | [], _ => rfl
      | [u], _ => rfl
      | u :: v :: rest, hshort => exact absurd rfl (hshort u v rest)

theorem groupsOf_lower (text : JsString) : groupsOf (lower text) = groupsOf text := by
  rw [groupsOf, groupsOf, splitGap_lower]
  cases splitGap text with
  | none => simp only [Option.map_none, splitOn_lower (.inr rfl), readPieces_lower]
  | some parts =>
      simp only [Option.map_some, readFront_lower, readBack_lower]

theorem parseAddress_lower (text : JsString) : parseAddress (lower text) = parseAddress text := by
  rw [parseAddress, parseAddress, parseIPv4_lower, parseIPv6, parseIPv6, groupsOf_lower]

/-! ## The groups of a text -/

theorem ofGroups_append (front back : List Nat) :
    ofGroups (front ++ back) = ofGroups front * 2 ^ (16 * back.length) + ofGroups back := by
  induction back using List.reverseRecOn with
  | nil => simp [ofGroups]
  | append_singleton back group ih =>
      have hstep (groups : List Nat) : ofGroups (groups ++ [group]) = ofGroups groups * 2 ^ 16 + group := by
        simp [ofGroups]
      rw [← List.append_assoc, hstep, hstep, ih, List.length_append, List.length_singleton, Nat.mul_add,
        Nat.pow_add]
      ring

theorem ofGroups_lt {groups : List Nat} (h : ∀ group ∈ groups, group < 2 ^ 16) :
    ofGroups groups < 2 ^ (16 * groups.length) := by
  induction groups using List.reverseRecOn with
  | nil => simp [ofGroups]
  | append_singleton groups group ih =>
      have hgroup := h group (by simp)
      have hgroups := ih fun g hg => h g (by simp [hg])
      rw [ofGroups_append, List.length_append, List.length_singleton, Nat.mul_add, Nat.pow_add]
      simp only [ofGroups, List.foldl_cons, List.foldl_nil] at hgroups ⊢
      omega

theorem readGroup_eq_some {piece : JsString} {group : Nat} (h : readGroup piece = some group) :
    ∃ digits, piece.mapM hexDigit = some digits ∧ group = ofDigits digits ∧
      digits.length = piece.length ∧ (∀ d ∈ digits, d < 16) ∧ 0 < piece.length ∧ piece.length ≤ 4 := by
  unfold readGroup at h
  split at h
  · rename_i hpiece
    obtain ⟨digits, hdigits, rfl⟩ := Option.map_eq_some_iff.mp h
    obtain ⟨hlength, hlt⟩ := mapM_hexDigit_lt hdigits
    exact ⟨digits, hdigits, rfl, hlength, hlt, List.length_pos_iff.mpr hpiece.1, hpiece.2⟩
  · exact absurd h (by simp)

theorem readGroup_lt {piece : JsString} {group : Nat} (h : readGroup piece = some group) :
    group < 2 ^ 16 := by
  obtain ⟨digits, -, rfl, hlength, hlt, -, hfour⟩ := readGroup_eq_some h
  calc ofDigits digits < 16 ^ digits.length := ofDigits_lt hlt
    _ ≤ 16 ^ 4 := Nat.pow_le_pow_right (by omega) (by omega)

theorem readPieces_cons {piece next : JsString} {rest : List JsString} {groups : List Nat}
    (h : readPieces (piece :: next :: rest) = some groups) :
    ∃ group more, readGroup piece = some group ∧ readPieces (next :: rest) = some more ∧
      groups = group :: more := by
  simp only [readPieces, Option.bind_eq_bind, Option.bind_eq_some_iff] at h
  obtain ⟨group, hgroup, more, hmore, heq⟩ := h
  exact ⟨group, more, hgroup, hmore, (Option.some.inj heq).symm⟩

theorem readPieces_lt {pieces : List JsString} {groups : List Nat}
    (h : readPieces pieces = some groups) : ∀ group ∈ groups, group < 2 ^ 16 := by
  fun_induction readPieces pieces generalizing groups with
  | case1 =>
      obtain rfl := Option.some.inj h
      exact fun _ hmem => absurd hmem List.not_mem_nil
  | case2 last value hvalue =>
      obtain rfl := Option.some.inj h
      have hlt := value.isLt
      intro group hgroup
      simp only [List.mem_cons, List.not_mem_nil, or_false] at hgroup
      rcases hgroup with rfl | rfl <;> omega
  | case3 last hvalue =>
      obtain ⟨group, hgroup, rfl⟩ := Option.map_eq_some_iff.mp h
      intro g hg
      rw [List.mem_singleton.mp hg]
      exact readGroup_lt hgroup
  | case4 piece rest hrest ih =>
      simp only [Option.bind_eq_bind, Option.bind_eq_some_iff] at h
      obtain ⟨group, hgroup, more, hmore, heq⟩ := h
      obtain rfl := Option.some.inj heq
      exact List.forall_mem_cons.mpr ⟨readGroup_lt hgroup, ih hmore⟩

theorem mapM_readGroup_lt {pieces : List JsString} {groups : List Nat}
    (h : pieces.mapM readGroup = some groups) : ∀ group ∈ groups, group < 2 ^ 16 := by
  induction pieces generalizing groups with
  | nil =>
      obtain rfl : [] = groups := by simpa using h
      exact fun _ hmem => absurd hmem List.not_mem_nil
  | cons piece pieces ih =>
      simp only [List.mapM_cons, Option.bind_eq_bind, Option.bind_eq_some_iff] at h
      obtain ⟨group, hgroup, more, hmore, heq⟩ := h
      obtain rfl := Option.some.inj heq
      exact List.forall_mem_cons.mpr ⟨readGroup_lt hgroup, ih hmore⟩

/-- Every text of an IPv6 address has eight groups of 16 bits. -/
theorem groupsOf_spec {text : JsString} {groups : List Nat} (h : groupsOf text = some groups) :
    groups.length = 8 ∧ ∀ group ∈ groups, group < 2 ^ 16 := by
  unfold groupsOf at h
  split at h
  · obtain ⟨hread, hlength⟩ := Option.filter_eq_some_iff.mp h
    exact ⟨beq_iff_eq.mp hlength, readPieces_lt hread⟩
  · rename_i before after hgap
    simp only [Option.bind_eq_bind, Option.bind_eq_some_iff] at h
    obtain ⟨front, hfront, back, hback, h⟩ := h
    split at h
    · rename_i hroom
      obtain rfl := Option.some.inj h
      have hfrontLt : ∀ group ∈ front, group < 2 ^ 16 := by
        unfold readFront at hfront
        split at hfront
        · obtain rfl := Option.some.inj hfront
          exact fun _ hmem => absurd hmem List.not_mem_nil
        · exact mapM_readGroup_lt hfront
      have hbackLt : ∀ group ∈ back, group < 2 ^ 16 := by
        unfold readBack at hback
        split at hback
        · obtain rfl := Option.some.inj hback
          exact fun _ hmem => absurd hmem List.not_mem_nil
        · exact readPieces_lt hback
      refine ⟨by simp only [List.length_append, List.length_replicate]; omega, ?_⟩
      intro group hgroup
      rcases List.mem_append.mp hgroup with hgroup | hgroup
      · rcases List.mem_append.mp hgroup with hgroup | hgroup
        · exact hfrontLt group hgroup
        · rw [(List.mem_replicate.mp hgroup).2]
          omega
      · exact hbackLt group hgroup
    · exact absurd h (by simp)

theorem splitGap_eq_some {text before after : JsString} (h : splitGap text = some (before, after)) :
    text = before ++ colon :: colon :: after := by
  fun_induction splitGap text generalizing before with
  | case1 u v rest hgap =>
      obtain ⟨rfl, rfl⟩ := hgap
      obtain ⟨rfl, rfl⟩ := Prod.mk.inj (Option.some.inj h)
      rfl
  | case2 u v rest hgap ih =>
      obtain ⟨⟨b, a⟩, hparts, heq⟩ := Option.map_eq_some_iff.mp h
      obtain ⟨rfl, rfl⟩ := Prod.mk.inj heq
      rw [ih hparts]
      rfl
  | case3 text hshort => exact absurd h (by simp)

/-- The text begins with a gap, or its first piece is the first group; a second piece that
is neither empty nor the last is the second group. -/
theorem groupsOf_pieces {text : JsString} {groups : List Nat} (h : groupsOf text = some groups) :
    (∃ rest back, text = colon :: colon :: rest ∧ back.length ≤ 7 ∧
      groups = List.replicate (8 - back.length) 0 ++ back) ∨
    ∃ first second more group later, text.splitOn colon = first :: second :: more ∧
      readGroup first = some group ∧ groups = group :: later ∧
      (second ≠ [] → more ≠ [] → ∃ next last, readGroup second = some next ∧ later = next :: last) := by
  unfold groupsOf at h
  split at h
  · obtain ⟨hread, hlength⟩ := Option.filter_eq_some_iff.mp h
    have height : groups.length = 8 := beq_iff_eq.mp hlength
    right
    match hsplit : text.splitOn colon with
    | [] => exact absurd hsplit (List.splitOn_ne_nil colon text)
    | [last] =>
        rw [hsplit] at hread
        simp only [readPieces] at hread
        split at hread
        · obtain rfl := Option.some.inj hread
          exact absurd height (by simp)
        · obtain ⟨group, -, rfl⟩ := Option.map_eq_some_iff.mp hread
          exact absurd height (by simp)
    | first :: second :: more =>
        rw [hsplit] at hread
        obtain ⟨group, later, hgroup, hlater, rfl⟩ := readPieces_cons hread
        refine ⟨first, second, more, group, later, rfl, hgroup, rfl, fun _ hmore => ?_⟩
        obtain ⟨third, more, rfl⟩ := List.exists_cons_of_ne_nil hmore
        obtain ⟨next, last, hnext, -, rfl⟩ := readPieces_cons hlater
        exact ⟨next, last, hnext, rfl⟩
  · rename_i before after hgap
    simp only [Option.bind_eq_bind, Option.bind_eq_some_iff] at h
    obtain ⟨front, hfront, back, hback, h⟩ := h
    split at h
    · rename_i hroom
      obtain rfl := Option.some.inj h
      have htext := splitGap_eq_some hgap
      by_cases hbefore : before = []
      · subst hbefore
        obtain rfl := Option.some.inj (show some [] = some front from hfront)
        left
        refine ⟨after, back, htext, by simpa using hroom, ?_⟩
        rw [List.nil_append, List.length_nil, Nat.zero_add]
      · right
        rw [readFront, if_neg hbefore] at hfront
        have hsplit : text.splitOn colon =
            before.splitOn colon ++ [] :: after.splitOn colon := by
          rw [htext, List.splitOn_append_cons_self, List.splitOn_cons_eq_if_modifyHead,
            if_pos (beq_self_eq_true _)]
        obtain ⟨first, pieces, hpieces⟩ :=
          List.exists_cons_of_ne_nil (List.splitOn_ne_nil colon before)
        rw [hpieces] at hfront hsplit
        simp only [List.mapM_cons, Option.bind_eq_bind, Option.bind_eq_some_iff] at hfront
        obtain ⟨group, hgroup, later, hlater, heq⟩ := hfront
        obtain rfl := Option.some.inj heq
        cases pieces with
        | nil =>
            exact ⟨first, [], after.splitOn colon, group, _, hsplit, hgroup, rfl,
              fun hne _ => absurd rfl hne⟩
        | cons second pieces =>
            simp only [List.mapM_cons, Option.bind_eq_bind, Option.bind_eq_some_iff] at hlater
            obtain ⟨next, hnext, last, -, heq⟩ := hlater
            obtain rfl := Option.some.inj heq
            exact ⟨first, second, _, group, _, hsplit, hgroup, rfl, fun _ _ => ⟨next, _, hnext, rfl⟩⟩
    · exact absurd h (by simp)

/-! ## What the patterns see -/

theorem hexUnit_inj {d e : Nat} (hd : d < 16) (he : e < 16) : hexUnit d = hexUnit e ↔ d = e := by
  constructor
  · intro h
    have hdigit := congrArg hexDigit h
    rwa [hexDigit_hexUnit hd, hexDigit_hexUnit he, Option.some.injEq] at hdigit
  · intro h
    rw [h]

theorem hexDigit_eq_some {u : UInt16} {d : Nat} (hlower : lowerUnit u = u)
    (h : hexDigit u = some d) : u = hexUnit d := by
  have hupper : ¬ (0x41 ≤ u ∧ u ≤ 0x5a) := by
    intro hu
    have hnat := congrArg UInt16.toNat hlower
    rw [lowerUnit_upper hu, (toNat_add_case hu).2.2] at hnat
    omega
  apply UInt16.toNat_inj.mp
  simp only [hexDigit, Bool.and_eq_true, decide_eq_true_eq] at h
  simp only [UInt16.le_iff_toNat_le, UInt16.reduceToNat] at h hupper
  split_ifs at h with hdigit hletter hcapital
  · obtain rfl := Option.some.inj h
    rw [hexUnit, if_pos (by rw [UInt16.toNat_sub]; simp only [UInt16.reduceToNat]; omega)]
    simp only [UInt16.toNat_sub, UInt16.reduceToNat, Nat.toUInt16_eq, UInt16.toNat_ofNat']
    omega
  · obtain rfl := Option.some.inj h
    rw [hexUnit, if_neg (by omega)]
    simp only [UInt16.toNat_sub, UInt16.reduceToNat, Nat.toUInt16_eq, UInt16.toNat_ofNat']
    omega
  · omega

theorem mapM_hexDigit_eq_some {piece : JsString} {digits : List Nat}
    (hlower : ∀ u ∈ piece, lowerUnit u = u) (h : piece.mapM hexDigit = some digits) :
    piece = digits.map hexUnit := by
  induction piece generalizing digits with
  | nil =>
      obtain rfl : [] = digits := by simpa using h
      rfl
  | cons u piece ih =>
      simp only [List.mapM_cons, Option.bind_eq_bind, Option.bind_eq_some_iff] at h
      obtain ⟨d, hd, rest, hrest, heq⟩ := h
      obtain rfl := Option.some.inj heq
      rw [List.forall_mem_cons] at hlower
      rw [List.map_cons, ← ih hlower.2 hrest, ← hexDigit_eq_some hlower.1 hd]

theorem hexDigit_of_mapM {piece : JsString} {digits : List Nat} (h : piece.mapM hexDigit = some digits)
    {u : UInt16} (hu : u ∈ piece) : ∃ d, hexDigit u = some d := by
  induction piece generalizing digits with
  | nil => exact absurd hu List.not_mem_nil
  | cons v piece ih =>
      simp only [List.mapM_cons, Option.bind_eq_bind, Option.bind_eq_some_iff] at h
      obtain ⟨d, hd, rest, hrest, -⟩ := h
      rcases List.mem_cons.mp hu with rfl | hu
      · exact ⟨d, hd⟩
      · exact ih hrest hu

/-- The digits that the patterns on the first group look for. -/
def LocalDigits : List Nat → Prop
  | a :: b :: rest => a = 15 ∧ (b = 12 ∨ b = 13 ∨ b = 15 ∨
      b = 14 ∧ ∃ c ∈ rest.head?, c = 8 ∨ c = 9 ∨ c = 10 ∨ c = 11)
  | _ => False

theorem startsLocal_digits {digits : List Nat} {rest : JsString} (hlt : ∀ d ∈ digits, d < 16)
    (hpos : 0 < digits.length) :
    startsLocal (digits.map hexUnit ++ colon :: rest) = true ↔ LocalDigits digits := by
  have hcolon {d : Nat} (hd : d < 16) : colon ≠ hexUnit d := by
    intro h
    have hdigit := congrArg hexDigit h
    rw [hexDigit_hexUnit hd, show hexDigit colon = none from by decide] at hdigit
    exact absurd hdigit (by simp)
  have hfc : js "fc" = [hexUnit 15, hexUnit 12] := by decide
  have hfd : js "fd" = [hexUnit 15, hexUnit 13] := by decide
  have hff : js "ff" = [hexUnit 15, hexUnit 15] := by decide
  have hfe8 : js "fe8" = [hexUnit 15, hexUnit 14, hexUnit 8] := by decide
  have hfe9 : js "fe9" = [hexUnit 15, hexUnit 14, hexUnit 9] := by decide
  have hfea : js "fea" = [hexUnit 15, hexUnit 14, hexUnit 10] := by decide
  have hfeb : js "feb" = [hexUnit 15, hexUnit 14, hexUnit 11] := by decide
  rw [startsLocal, hfc, hfd, hff, hfe8, hfe9, hfea, hfeb]
  match digits, hpos with
  | [a], _ =>
      simp [LocalDigits, hcolon]
  | [a, b], _ =>
      simp only [List.forall_mem_cons] at hlt
      simp [LocalDigits, hcolon, hexUnit_inj hlt.1, hexUnit_inj hlt.2.1]
      omega
  | a :: b :: c :: more, _ =>
      simp only [List.forall_mem_cons] at hlt
      simp [LocalDigits, hexUnit_inj hlt.1, hexUnit_inj hlt.2.1, hexUnit_inj hlt.2.2.1]
      omega

/-! ## Blocks and groups -/

section Groups

variable {first : Nat} {later : List Nat}

theorem toNat_ofGroups {groups : List Nat} (hlength : groups.length = 8)
    (hlt : ∀ group ∈ groups, group < 2 ^ 16) :
    (BitVec.ofNat 128 (ofGroups groups)).toNat = ofGroups groups := by
  rw [BitVec.toNat_ofNat, Nat.mod_eq_of_lt]
  simpa [hlength] using ofGroups_lt hlt

/-- The first group of an address is its first 16 bits. -/
theorem first_eq_div (hlength : (first :: later).length = 8)
    (hlt : ∀ group ∈ first :: later, group < 2 ^ 16) :
    (BitVec.ofNat 128 (ofGroups (first :: later))).toNat / 2 ^ 112 = first := by
  have hlater : later.length = 7 := by simpa using hlength
  have hrest : ofGroups later < 2 ^ 112 := by
    simpa [hlater] using ofGroups_lt fun group hgroup => hlt group (List.mem_cons_of_mem _ hgroup)
  have hsum : ofGroups (first :: later) = first * 2 ^ 112 + ofGroups later := by
    have happend := ofGroups_append [first] later
    rw [hlater] at happend
    simpa [ofGroups] using happend
  rw [toNat_ofGroups hlength hlt, hsum]
  omega

theorem isLocal_iff {value : BitVec 128} : IsLocal value ↔
    (0xfc00 ≤ value.toNat / 2 ^ 112 ∧ value.toNat / 2 ^ 112 ≤ 0xfdff) ∨
    (0xfe80 ≤ value.toNat / 2 ^ 112 ∧ value.toNat / 2 ^ 112 ≤ 0xfebf) ∨
      0xff00 ≤ value.toNat / 2 ^ 112 := by
  have hunique : (0xfc00 <<< 112 : BitVec 128).toNat = 0xfc00 * 2 ^ 112 := by decide
  have hlink : (0xfe80 <<< 112 : BitVec 128).toNat = 0xfe80 * 2 ^ 112 := by decide
  have hmulti : (0xff00 <<< 112 : BitVec 128).toNat = 0xff00 * 2 ^ 112 := by decide
  have hlt := value.isLt
  simp only [IsLocal, InBlock, hunique, hlink, hmulti]
  omega

theorem isDocumentation_iff {value : BitVec 128} : IsDocumentation value ↔
    value.toNat / 2 ^ 96 = 0x20010db8 := by
  have hbase : (0x20010db8 <<< 96 : BitVec 128).toNat = 0x20010db8 * 2 ^ 96 := by decide
  simp only [IsDocumentation, InBlock, hbase]
  omega

theorem mappedAddress_toNat (inner : BitVec 32) :
    (mappedAddress inner).toNat = 0xffff * 2 ^ 32 + inner.toNat := by
  have hlt := inner.isLt
  rw [mappedAddress, BitVec.toNat_ofNat]
  omega

theorem mappedAddress_inj {inner other : BitVec 32} (h : mappedAddress inner = mappedAddress other) :
    inner = other := by
  have hnat := congrArg BitVec.toNat h
  rw [mappedAddress_toNat, mappedAddress_toNat] at hnat
  exact BitVec.eq_of_toNat_eq (by omega)

theorem localDigits_iff {digits : List Nat} (hlt : ∀ d ∈ digits, d < 16) (hfour : digits.length = 4) :
    LocalDigits digits ↔ (0xfc00 ≤ ofDigits digits ∧ ofDigits digits ≤ 0xfdff) ∨
      (0xfe80 ≤ ofDigits digits ∧ ofDigits digits ≤ 0xfebf) ∨ 0xff00 ≤ ofDigits digits := by
  match digits, hfour with
  | [a, b, c, d], _ =>
      simp only [List.forall_mem_cons] at hlt
      simp [LocalDigits, ofDigits]
      omega

theorem ofDigits_pos_of_local {digits : List Nat} (h : LocalDigits digits) : 0 < ofDigits digits := by
  match digits, h with
  | a :: b :: rest, h =>
      obtain ⟨rfl, -⟩ := h
      have hmono (n : Nat) (rest : List Nat) (hn : 0 < n) :
          0 < rest.foldl (fun n d => 16 * n + d) n := by
        induction rest generalizing n with
        | nil => exact hn
        | cons d rest ih => exact ih (16 * n + d) (by omega)
      exact hmono 15 (b :: rest) (by omega)

end Groups

/-- **The first group.**  The pattern for local addresses sees those with four digits in the
first group, and nothing else but short first groups. -/
theorem startsLocal_reading {text : JsString} {groups : List Nat} (hlower : lower text = text)
    (h : groupsOf text = some groups) :
    (startsLocal text = true → (firstPiece text).length = 4 →
      IsLocal (BitVec.ofNat 128 (ofGroups groups))) ∧
    (IsLocal (BitVec.ofNat 128 (ofGroups groups)) →
      startsLocal text = true ∧ (firstPiece text).length = 4) ∧
    (startsLocal text = true → (firstPiece text).length ≠ 4 →
      0 < (BitVec.ofNat 128 (ofGroups groups)).toNat / 2 ^ 112 ∧
        (BitVec.ofNat 128 (ofGroups groups)).toNat / 2 ^ 112 < 0x1000) := by
  obtain ⟨height, hlt⟩ := groupsOf_spec h
  rcases groupsOf_pieces h with ⟨rest, back, rfl, hback, hgroups⟩ |
    ⟨first, second, more, group, later, hsplit, hgroup, rfl, -⟩
  · have hno : startsLocal (colon :: colon :: rest) = false := by
      have htwo : [js "fc", js "fd", js "ff"].contains [colon, colon] = false := by decide
      have hthree (more : JsString) :
          [js "fe8", js "fe9", js "fea", js "feb"].contains (colon :: more) = false := by
        simp [js, utf16, colon]
      exact Bool.or_eq_false_iff.mpr ⟨htwo, hthree _⟩
    have hzero : (BitVec.ofNat 128 (ofGroups groups)).toNat / 2 ^ 112 = 0 := by
      obtain ⟨n, hn⟩ : ∃ n, 8 - back.length = n + 1 := ⟨7 - back.length, by omega⟩
      rw [hn, List.replicate_succ, List.cons_append] at hgroups
      subst hgroups
      exact first_eq_div height hlt
    rw [isLocal_iff, hzero, hno]
    simp
  · obtain ⟨digits, hdigits, rfl, hlength, hdigit, hpos, hfour⟩ := readGroup_eq_some hgroup
    have htext : text = first ++ colon :: [colon].intercalate (second :: more) := by
      rw [← Segments.intercalate_cons (List.cons_ne_nil _ _), ← hsplit, List.intercalate_splitOn]
    have hnone : colon ∉ first :=
      Segments.not_mem_of_mem_splitOn (hsplit ▸ List.mem_cons_self)
    have hpiece : firstPiece text = first := by
      have hall : ∀ u ∈ first, (u != colon) = true := fun u hu =>
        bne_iff_ne.mpr (ne_of_mem_of_not_mem hu hnone)
      rw [firstPiece, htext, List.takeWhile_append_of_pos hall]
      simp
    have hfirst : first = digits.map hexUnit := by
      refine mapM_hexDigit_eq_some (fun u hu => ?_) hdigits
      have hmem : u ∈ text := htext ▸ List.mem_append_left _ hu
      obtain ⟨i, hi, rfl⟩ := List.mem_iff_getElem.mp hmem
      have hget := congrArg (·[i]?) hlower
      simpa [lower, hi] using hget
    have hstarts : startsLocal text = true ↔ LocalDigits digits := by
      rw [htext, hfirst]
      exact startsLocal_digits hdigit (hlength ▸ hpos)
    rw [isLocal_iff, first_eq_div height hlt, hpiece, hstarts, ← hlength]
    refine ⟨fun hlocal hfour => (localDigits_iff hdigit hfour).mp hlocal, fun hrange => ?_,
      fun hlocal hshort => ⟨ofDigits_pos_of_local hlocal, ?_⟩⟩
    · have hbound := ofDigits_lt hdigit
      have hfull : digits.length = 4 := by
        by_contra hshort
        have hthree : (16 : Nat) ^ digits.length ≤ 16 ^ 3 :=
          Nat.pow_le_pow_right (by omega) (by omega)
        omega
      exact ⟨(localDigits_iff hdigit hfull).mpr hrange, hfull⟩
    · have hthree : (16 : Nat) ^ digits.length ≤ 16 ^ 3 :=
        Nat.pow_le_pow_right (by omega) (by omega)
      have hbound := ofDigits_lt hdigit
      omega

theorem documentation_reading {text : JsString} {groups : List Nat}
    (h : groupsOf text = some groups) (htake : text.take 9 = js "2001:db8:") :
    IsDocumentation (BitVec.ofNat 128 (ofGroups groups)) := by
  obtain ⟨height, hlt⟩ := groupsOf_spec h
  have htext : text = js "2001" ++ colon :: (js "db8" ++ colon :: text.drop 9) := by
    have hliteral : js "2001:db8:" = js "2001" ++ colon :: (js "db8" ++ [colon]) := by decide
    calc text = text.take 9 ++ text.drop 9 := (List.take_append_drop 9 text).symm
      _ = _ := by rw [htake, hliteral]; simp
  have hsplit : text.splitOn colon = js "2001" :: js "db8" :: (text.drop 9).splitOn colon := by
    have hyear : (js "2001").splitOn colon = [js "2001"] := List.splitOn_eq_singleton (by decide)
    have hblock : (js "db8").splitOn colon = [js "db8"] := List.splitOn_eq_singleton (by decide)
    conv_lhs => rw [htext]
    rw [List.splitOn_append_cons_self, List.splitOn_append_cons_self, hyear, hblock]
    rfl
  rcases groupsOf_pieces h with ⟨rest, back, hgap, -⟩ |
    ⟨first, second, more, group, later, hpieces, hgroup, rfl, hnext⟩
  · rw [hgap] at hsplit
    rw [List.splitOn_cons_eq_if_modifyHead, if_pos (beq_self_eq_true _)] at hsplit
    exact absurd (List.cons.inj hsplit).1 (by decide)
  · rw [hsplit] at hpieces
    obtain ⟨rfl, htail⟩ := List.cons.inj hpieces
    obtain ⟨rfl, rfl⟩ := List.cons.inj htail
    obtain ⟨next, last, hread, rfl⟩ := hnext (by decide) (List.splitOn_ne_nil _ _)
    have hyear : readGroup (js "2001") = some 0x2001 := by decide
    have hblock : readGroup (js "db8") = some 0xdb8 := by decide
    obtain rfl := Option.some.inj (hyear.symm.trans hgroup)
    obtain rfl := Option.some.inj (hblock.symm.trans hread)
    have hlast : last.length = 6 := by simpa using height
    have hrest : ofGroups last < 2 ^ 96 := by
      simpa [hlast] using ofGroups_lt fun group hgroup =>
        hlt group (List.mem_cons_of_mem _ (List.mem_cons_of_mem _ hgroup))
    have hsum : ofGroups (0x2001 :: 0xdb8 :: last) = 0x20010db8 * 2 ^ 96 + ofGroups last := by
      have happend := ofGroups_append [0x2001, 0xdb8] last
      rw [hlast] at happend
      simpa [ofGroups] using happend
    rw [isDocumentation_iff, toNat_ofGroups height hlt, hsum]
    omega

theorem mappedMatch_eq_some {text tail : JsString} (h : mappedMatch text = some tail) :
    text = js "::ffff:" ++ tail ∧ (tail.splitOn dot).length = 4 ∧
      ∀ part ∈ tail.splitOn dot, ∀ u ∈ part, isDecimalDigit u = true := by
  simp only [mappedMatch] at h
  split at h
  · rename_i hmatch
    obtain rfl := Option.some.inj h
    refine ⟨?_, hmatch.2.1, fun part hpart u hu => ?_⟩
    · rw [← hmatch.1, List.take_append_drop]
    · have htest := List.all_eq_true.mp hmatch.2.2 part hpart
      rw [Bool.and_eq_true] at htest
      exact List.all_eq_true.mp htest.2 u hu
  · exact absurd h (by simp)

/-- A text that the pattern for mapped addresses matches denotes one. -/
theorem mapped_reading {text tail : JsString} {groups : List Nat} (h : groupsOf text = some groups)
    (hmatch : mappedMatch text = some tail) :
    ∃ inner, parseIPv4 tail = some inner ∧
      BitVec.ofNat 128 (ofGroups groups) = mappedAddress inner := by
  obtain ⟨rfl, hfour, hdigits⟩ := mappedMatch_eq_some hmatch
  have hcolon : colon ∉ tail := by
    intro hmem
    obtain ⟨part, hpart, hin⟩ := Segments.mem_segment hmem (show colon ≠ dot by decide)
    exact absurd (hdigits part hpart colon hin) (by decide)
  have hdot : dot ∈ tail := by
    by_contra hnone
    rw [List.splitOn_eq_singleton hnone] at hfour
    exact absurd hfour (by simp)
  have hgap : splitGap (js "::ffff:" ++ tail) = some ([], js "ffff:" ++ tail) := by
    have hliteral : js "::ffff:" = colon :: colon :: js "ffff:" := by decide
    rw [hliteral, List.cons_append, List.cons_append, splitGap, if_pos ⟨rfl, rfl⟩]
  have hpieces : (js "ffff:" ++ tail).splitOn colon = [js "ffff", tail] := by
    have hliteral : js "ffff:" = js "ffff" ++ [colon] := by decide
    have hword : (js "ffff").splitOn colon = [js "ffff"] := List.splitOn_eq_singleton (by decide)
    rw [hliteral, List.append_assoc, List.singleton_append, List.splitOn_append_cons_self, hword,
      List.splitOn_eq_singleton hcolon]
    rfl
  have hfront : readFront [] = some [] := rfl
  have hgroup : readGroup (js "ffff") = some 0xffff := by decide
  have hnonempty : js "ffff:" ++ tail ≠ [] := by
    rw [show js "ffff:" = 0x66 :: js "fff:" from by decide]
    exact List.cons_ne_nil _ _
  have hback : readBack (js "ffff:" ++ tail) =
      (readPieces [tail]).bind fun groups => some (0xffff :: groups) := by
    rw [readBack, if_neg hnonempty, hpieces]
    simp [readPieces, hgroup]
  cases hparse : parseIPv4 tail with
  | none =>
      have hno : readGroup tail = none := by
        cases hgroup : readGroup tail with
        | none => rfl
        | some group =>
            obtain ⟨digits, hmapM, -⟩ := readGroup_eq_some hgroup
            obtain ⟨d, hd⟩ := hexDigit_of_mapM hmapM hdot
            exact absurd hd (by rw [show hexDigit dot = none from by decide]; simp)
      have hnone : groupsOf (js "::ffff:" ++ tail) = none := by
        rw [groupsOf, hgap]
        simp [hfront, hback, readPieces, hparse, hno]
      rw [hnone] at h
      exact absurd h (by simp)
  | some inner =>
      refine ⟨inner, rfl, ?_⟩
      have hsome : groupsOf (js "::ffff:" ++ tail) =
          some [0, 0, 0, 0, 0, 0xffff, inner.toNat / 2 ^ 16, inner.toNat % 2 ^ 16] := by
        rw [groupsOf, hgap]
        simp [hfront, hback, readPieces, hparse]
      rw [hsome] at h
      obtain rfl := Option.some.inj h
      have hlt := inner.isLt
      refine congrArg (BitVec.ofNat 128) ?_
      simp only [ofGroups, List.foldl_cons, List.foldl_nil]
      omega

/-! ## The judgement -/

/-- What the patterns make of a lower-case text that denotes an IPv6 address. -/
def judgeNormalized (normalized : JsString) : Bool :=
  if normalized = js "::" ∨ normalized = js "::1" then false
  else
    match mappedMatch normalized with
    | some mapped => isPublicNetworkAddress mapped
    | none => !startsLocal normalized && !startsDocumentation normalized

theorem judged_v6 {text : JsString} (h : isIP text = 6) :
    isPublicNetworkAddress text = judgeNormalized (lower text) := by
  rw [isPublicNetworkAddress, if_neg (by omega), if_pos h]
  dsimp only
  rw [judgeNormalized]
  split
  · rfl
  · split <;> rename_i heq <;> simp only [heq]

theorem group_of_mapped (inner : BitVec 32) : (mappedAddress inner).toNat / 2 ^ 112 = 0 := by
  have hnat := mappedAddress_toNat inner
  have hlt := inner.isLt
  omega

theorem mappedAddress_ne (inner : BitVec 32) :
    mappedAddress inner ≠ 0 ∧ mappedAddress inner ≠ 1 := by
  have hnat := mappedAddress_toNat inner
  constructor
  · intro h
    rw [h] at hnat
    exact absurd hnat (by simp; omega)
  · intro h
    rw [h] at hnat
    exact absurd hnat (by simp; omega)

/-- The kinds of addresses that are not public have different first groups, but for the
unspecified, the loopback and the mapped ones, whose first group is zero. -/
theorem group_of_kind (value : BitVec 128) : (value = 0 → value.toNat / 2 ^ 112 = 0) ∧
    (value = 1 → value.toNat / 2 ^ 112 = 0) ∧
    (IsDocumentation value → value.toNat / 2 ^ 112 = 0x2001) ∧
    (IsLocal value → 0x2001 < value.toNat / 2 ^ 112) := by
  refine ⟨?_, ?_, fun h => ?_, fun h => ?_⟩
  · rintro rfl
    decide
  · rintro rfl
    decide
  · rw [isDocumentation_iff] at h
    omega
  · rw [isLocal_iff] at h
    omega

section Judged

variable {text : JsString} {groups : List Nat}

theorem judged_mapped {tail : JsString} {inner : BitVec 32} (hlower : lower text = text)
    (h : groupsOf text = some groups) (hmatch : mappedMatch text = some tail)
    (hparse : parseIPv4 tail = some inner)
    (hvalue : BitVec.ofNat 128 (ofGroups groups) = mappedAddress inner) :
    (isPublicNetworkAddress tail = true ↔
      (Address.v6 (BitVec.ofNat 128 (ofGroups groups))).IsPublic) ∧
      PlainlySpelled text (.v6 (BitVec.ofNat 128 (ofGroups groups))) := by
  obtain ⟨hfour, -, hshort⟩ := startsLocal_reading hlower h
  rw [hvalue] at hfour hshort ⊢
  obtain ⟨hzero, hone⟩ := mappedAddress_ne inner
  obtain ⟨-, -, hdocFirst, hlocalFirst⟩ := group_of_kind (mappedAddress inner)
  rw [group_of_mapped] at hshort hdocFirst hlocalFirst
  have hnolocal : ¬ IsLocal (mappedAddress inner) := fun hin => by have := hlocalFirst hin; omega
  have hnodoc : ¬ IsDocumentation (mappedAddress inner) := fun hin => by
    have := hdocFirst hin
    omega
  have hno : startsLocal text ≠ true := by
    intro hstarts
    by_cases hlength : (firstPiece text).length = 4
    · exact hnolocal (hfour hstarts hlength)
    · exact absurd (hshort hstarts hlength).1 (Nat.lt_irrefl 0)
  constructor
  · rw [judged_v4 hparse]
    exact ⟨fun hinner => ⟨hzero, hone, fun other heq => mappedAddress_inj heq ▸ hinner, hnolocal,
      hnodoc⟩, fun hall => hall.2.2.1 inner rfl⟩
  · exact ⟨fun heq => absurd heq hzero, fun heq => absurd heq hone,
      fun _ _ _ => by rw [hmatch]; rfl, fun hin => absurd hin hnodoc, fun hin => absurd hin hno⟩

theorem judgeNormalized_iff (hlower : lower text = text) (h : groupsOf text = some groups) :
    (judgeNormalized text = true ↔
      (Address.v6 (BitVec.ofNat 128 (ofGroups groups))).IsPublic) ↔
      PlainlySpelled text (.v6 (BitVec.ofNat 128 (ofGroups groups))) := by
  have hzeroText : text = js "::" → BitVec.ofNat 128 (ofGroups groups) = 0 := by
    rintro rfl
    have hread : groupsOf (js "::") = some (List.replicate 8 0) := by decide
    obtain rfl := Option.some.inj (hread.symm.trans h)
    decide
  have honeText : text = js "::1" → BitVec.ofNat 128 (ofGroups groups) = 1 := by
    rintro rfl
    have hread : groupsOf (js "::1") = some (List.replicate 7 0 ++ [1]) := by decide
    obtain rfl := Option.some.inj (hread.symm.trans h)
    decide
  have hdocText : startsDocumentation text = true ↔ text.take 9 = js "2001:db8:" := by
    rw [startsDocumentation, Bool.or_eq_true, beq_iff_eq, beq_iff_eq]
    refine ⟨fun heither => heither.resolve_left ?_, .inr⟩
    rintro rfl
    rw [(by decide : groupsOf (js "2001:db8") = none)] at h
    exact absurd h (by simp)
  cases hmatch : mappedMatch text with
  | some tail =>
      obtain ⟨inner, hparse, hvalue⟩ := mapped_reading h hmatch
      obtain ⟨hzero, hone⟩ := mappedAddress_ne inner
      obtain ⟨hright, hplain⟩ := judged_mapped hlower h hmatch hparse hvalue
      have hverdict : judgeNormalized text = isPublicNetworkAddress tail := by
        rw [judgeNormalized, hmatch, if_neg (not_or.mpr ⟨fun heq => hzero (hvalue ▸ hzeroText heq),
          fun heq => hone (hvalue ▸ honeText heq)⟩)]
      rw [hverdict]
      exact iff_of_true hright hplain
  | none =>
      obtain ⟨hfour, hlocal, hshort⟩ := startsLocal_reading hlower h
      have hdoc := documentation_reading h
      generalize BitVec.ofNat 128 (ofGroups groups) = value at *
      have hverdict : judgeNormalized text = true ↔ ¬ text = js "::" ∧ ¬ text = js "::1" ∧
          ¬ startsLocal text = true ∧ ¬ text.take 9 = js "2001:db8:" := by
        rw [judgeNormalized, hmatch, ← hdocText]
        simp only [Bool.not_eq_true, Bool.if_false_left, Bool.and_eq_true, Bool.not_eq_true',
          decide_eq_false_iff_not, not_or, and_assoc]
      have hpublic : (Address.v6 value).IsPublic ↔ ¬ value = 0 ∧ ¬ value = 1 ∧
          ¬ (∃ inner, value = mappedAddress inner ∧ ¬ IsPublicV4 inner) ∧ ¬ IsLocal value ∧
            ¬ IsDocumentation value := by
        simp only [Address.IsPublic, ne_eq, not_exists, not_and, not_not]
      have hplain : PlainlySpelled text (.v6 value) ↔ (value = 0 → text = js "::") ∧
          (value = 1 → text = js "::1") ∧
          ¬ (∃ inner, value = mappedAddress inner ∧ ¬ IsPublicV4 inner) ∧
          (IsDocumentation value → text.take 9 = js "2001:db8:") ∧
          (startsLocal text = true → (firstPiece text).length = 4) := by
        simp only [PlainlySpelled, hmatch, not_exists, not_and, Option.isSome_none,
          Bool.false_eq_true, imp_false]
      have hmapped : (∃ inner, value = mappedAddress inner ∧ ¬ IsPublicV4 inner) →
          value.toNat / 2 ^ 112 = 0 ∧ value ≠ 0 ∧ value ≠ 1 := by
        rintro ⟨inner, rfl, -⟩
        exact ⟨group_of_mapped inner, mappedAddress_ne inner⟩
      obtain ⟨hzeroFirst, honeFirst, hdocFirst, hlocalFirst⟩ := group_of_kind value
      have hzeroOne : (0 : BitVec 128) ≠ 1 := by decide
      rw [hverdict, hpublic, hplain]
      generalize (∃ inner, value = mappedAddress inner ∧ ¬ IsPublicV4 inner) = mappedPrivate at *
      by_cases hstarts : startsLocal text = true
      · by_cases hlength : (firstPiece text).length = 4
        · have hblock := hfour hstarts hlength
          grind
        · have hgroup := hshort hstarts hlength
          grind
      · have hnolocal : ¬ IsLocal value := fun hin => hstarts (hlocal hin).1
        grind

end Judged

theorem lower_lower (text : JsString) : lower (lower text) = lower text := by
  rw [lower, lower, List.map_map]
  refine List.map_congr_left fun u _ => ?_
  by_cases hu : 0x41 ≤ u ∧ u ≤ 0x5a
  · obtain ⟨hlow, hhigh, hadd⟩ := toNat_add_case hu
    rw [Function.comp_apply, lowerUnit_upper hu]
    apply lowerUnit_other
    simp only [UInt16.le_iff_toNat_le, hadd, UInt16.reduceToNat]
    omega
  · rw [Function.comp_apply, lowerUnit_other hu, lowerUnit_other hu]

/-- **Which spellings are judged right.**  The verdict on a text is right for the address
that the text denotes if and only if the address is spelled as the patterns expect. -/
theorem judged_iff {text : JsString} {address : Address} (h : parseAddress text = some address) :
    (isPublicNetworkAddress text = true ↔ address.IsPublic) ↔
      PlainlySpelled (lower text) address := by
  cases hparse : parseIPv4 text with
  | some value =>
      obtain rfl : Address.v4 value = address := by
        simpa [parseAddress, hparse] using h
      exact iff_of_true (judged_v4 hparse) trivial
  | none =>
      obtain ⟨groups, hgroups, rfl⟩ : ∃ groups, groupsOf text = some groups ∧
          Address.v6 (BitVec.ofNat 128 (ofGroups groups)) = address := by
        simpa [parseAddress, hparse, parseIPv6] using h
      have hip : isIP text = 6 := by
        rw [isIP, h]
      rw [judged_v6 hip]
      rw [← groupsOf_lower] at hgroups
      exact judgeNormalized_iff (lower_lower text) hgroups

theorem judged_sample : (isPublicNetworkAddress (js "2606:4700::1") = true ↔
    (Address.v6 (0x26064700 <<< 96 + 1)).IsPublic) ↔
      PlainlySpelled (lower (js "2606:4700::1")) (.v6 (0x26064700 <<< 96 + 1)) :=
  judged_iff (by decide)

/-- The loopback address written in full is judged public, so the verdict depends on the
spelling. -/
theorem loopback_in_full :
    ¬ ((∀ text other address, parseAddress text = some address → parseAddress other = some address →
        isPublicNetworkAddress text = isPublicNetworkAddress other) ∧
      ∀ text address, parseAddress text = some address →
        (isPublicNetworkAddress text = true ↔ address.IsPublic)) := by
  rintro ⟨-, hright⟩
  have hparse : parseAddress (js "0:0:0:0:0:0:0:1") = some (.v6 1) := by decide
  have hverdict : isPublicNetworkAddress (js "0:0:0:0:0:0:0:1") = true := by
    rw [isPublicNetworkAddress]
    decide
  exact ((hright _ _ hparse).mp hverdict).2.1 rfl

end NetworkAddress
