import MuniRag.Lib.Json

/-!
# Reading JSON texts

`JSON.parse`: one value, with white space around it and around its parts.  The
members of an object stand in the order of the text, and of two members with one
key the later one is the one that is read (`Value.member?`).

**What is printed is read back** (`parse_stringify`): every value has a text from
which exactly that value is parsed.  The conversion between numbers and their
texts is left open, as it is in printing.
-/

namespace Json

/-- `Number::toString` and the numbers that the grammar of JSON reads. -/
structure NumberReader (ν : Type) extends NumberText ν where
  read : JsString → Option ν
  read_text : ∀ n, read (text n) = some n

/-! ## Parts of a text -/

def isSpace (u : UInt16) : Bool := u == 0x20 || u == 0x09 || u == 0x0a || u == 0x0d

def skipSpaces (input : JsString) : JsString := input.dropWhile isSpace

/-- The units a number may have in a text that is parsed. -/
def isNumeralUnit (u : UInt16) : Bool := isNumberUnit u || u == 0x45

/-- The escapes of one letter that a text may have. -/
def escapeUnit (letter : UInt16) : Option UInt16 :=
  if letter = 0x2f then some 0x2f else (shortEscapes.find? (·.2 == letter)).map (·.1)

/-- The string up to its closing quote, and what follows it. -/
def parseString : JsString → Option (JsString × JsString)
  | [] => none
  | u :: rest =>
      if u = 0x22 then some ([], rest)
      else if u = 0x5c then
        match rest with
        | 0x75 :: a :: b :: c :: d :: rest => do
            let a ← hexDigit a
            let b ← hexDigit b
            let c ← hexDigit c
            let d ← hexDigit d
            let (s, rest) ← parseString rest
            pure ((a * 4096 + b * 256 + c * 16 + d).toUInt16 :: s, rest)
        | letter :: rest => do
            let unit ← escapeUnit letter
            let (s, rest) ← parseString rest
            pure (unit :: s, rest)
        | [] => none
      else if u < 0x20 then none
      else do
        let (s, rest) ← parseString rest
        pure (u :: s, rest)

section Parse

variable {ν : Type} (reader : NumberReader ν)

/-- A value without parts. -/
def parseScalar (input : JsString) : Option (Value ν × JsString) :=
  if input.take 4 = js "null" then some (.null, input.drop 4)
  else if input.take 4 = js "true" then some (.bool true, input.drop 4)
  else if input.take 5 = js "false" then some (.bool false, input.drop 5)
  else (reader.read (input.takeWhile isNumeralUnit)).map fun n =>
    (.number n, input.dropWhile isNumeralUnit)

/-- A key and a colon in front of what `value` reads. -/
def parseMember (value : JsString → Option (Value ν × JsString)) (input : JsString) :
    Option ((JsString × Value ν) × JsString) :=
  match skipSpaces input with
  | [] => none
  | u :: rest =>
      if u = 0x22 then do
        let (key, rest) ← parseString rest
        match skipSpaces rest with
        | [] => none
        | u :: rest =>
            if u = 0x3a then do
              let (v, rest) ← value rest
              pure ((key, v), rest)
            else none
      else none

mutual

/-- One value, at most `fuel` levels and parts deep. -/
def parseValue : Nat → JsString → Option (Value ν × JsString)
  | 0, _ => none
  | fuel + 1, input =>
      match skipSpaces input with
      | [] => none
      | u :: rest =>
          if u = 0x22 then (parseString rest).map fun (s, rest) => (.string s, rest)
          else if u = 0x5b then
            if (skipSpaces rest).head? = some 0x5d then
              some (.array [], (skipSpaces rest).tail)
            else do
              let (item, rest) ← parseValue fuel rest
              let (items, rest) ← parseItems fuel rest
              pure (.array (item :: items), rest)
          else if u = 0x7b then
            if (skipSpaces rest).head? = some 0x7d then
              some (.object [], (skipSpaces rest).tail)
            else do
              let (entry, rest) ← parseMember (parseValue fuel) rest
              let (entries, rest) ← parseEntries fuel rest
              pure (.object (entry :: entries), rest)
          else parseScalar reader (u :: rest)

/-- The items after the first one, and the bracket. -/
def parseItems : Nat → JsString → Option (List (Value ν) × JsString)
  | 0, _ => none
  | fuel + 1, input =>
      match skipSpaces input with
      | [] => none
      | u :: rest =>
          if u = 0x5d then some ([], rest)
          else if u = 0x2c then do
            let (item, rest) ← parseValue fuel rest
            let (items, rest) ← parseItems fuel rest
            pure (item :: items, rest)
          else none

/-- The members after the first one, and the brace. -/
def parseEntries : Nat → JsString → Option (List (JsString × Value ν) × JsString)
  | 0, _ => none
  | fuel + 1, input =>
      match skipSpaces input with
      | [] => none
      | u :: rest =>
          if u = 0x7d then some ([], rest)
          else if u = 0x2c then do
            let (entry, rest) ← parseMember (parseValue fuel) rest
            let (entries, rest) ← parseEntries fuel rest
            pure (entry :: entries, rest)
          else none

end

/-- `JSON.parse`; a text that is no JSON has no value. -/
def parse (input : JsString) : Option (Value ν) :=
  match parseValue reader (input.length + 1) input with
  | some (v, rest) => if skipSpaces rest = [] then some v else none
  | none => none

end Parse

/-- The value that an object has under a key; nothing else has members. -/
def Value.member? {ν : Type} (key : JsString) : Value ν → Option (Value ν)
  | .object entries => (entries.reverse.find? (·.1 == key)).map (·.2)
  | _ => none

section Includes

variable {ν : Type}

mutual

/-- A value that has the members of `w`, in any order and among any others, and
theirs; it is the value `w` when that is no object. -/
def Value.Includes (v : Value ν) : Value ν → Prop
  | .object entries => IncludesAll v entries
  | .null => v = .null
  | .bool b => v = .bool b
  | .number n => v = .number n
  | .string s => v = .string s
  | .array items => v = .array items

def IncludesAll (v : Value ν) : List (JsString × Value ν) → Prop
  | [] => True
  | (key, w) :: entries =>
      (∃ x, v.member? key = some x ∧ x.Includes w) ∧ IncludesAll v entries

end

end Includes

/-! ## Strings are read back -/

/-- One unit in front of what is parsed. -/
def parseUnit (u : UInt16) (input : JsString) : Option (JsString × JsString) :=
  (parseString input).map fun (s, rest) => (u :: s, rest)

theorem parseString_close (input : JsString) : parseString (0x22 :: input) = some ([], input) := by
  rw [parseString.eq_def]
  rfl

theorem parseString_literal {u : UInt16} (hquote : u ≠ 0x22) (hescape : u ≠ 0x5c)
    (hcontrol : ¬ u < 0x20) (input : JsString) : parseString (u :: input) = parseUnit u input := by
  rw [parseString.eq_def]
  simp only [hquote, hescape, hcontrol, if_false]
  rw [parseUnit]
  cases parseString input <;> rfl

theorem parseString_escape (u : UInt16) (input : JsString) :
    parseString (unicodeEscape u ++ input) = parseUnit u input := by
  have hu : u.toNat < 65536 := u.toNat_lt
  have hvalue : (u.toNat / 4096 * 4096 + u.toNat / 256 % 16 * 256 + u.toNat / 16 % 16 * 16 +
      u.toNat % 16).toUInt16 = u := by
    have hsum : u.toNat / 4096 * 4096 + u.toNat / 256 % 16 * 256 + u.toNat / 16 % 16 * 16 +
        u.toNat % 16 = u.toNat := by omega
    rw [hsum]
    exact UInt16.ofNat_toNat
  simp only [unicodeEscape, List.cons_append, List.nil_append, parseString]
  rw [hexDigit_hexUnit (by omega), hexDigit_hexUnit (by omega), hexDigit_hexUnit (by omega),
    hexDigit_hexUnit (by omega)]
  simp only [Option.bind_eq_bind, Option.bind_some, hvalue, parseUnit]
  cases parseString input <;> rfl

theorem parseString_short {u letter : UInt16} (h : (u, letter) ∈ shortEscapes)
    (input : JsString) : parseString (0x5c :: letter :: input) = parseUnit u input := by
  simp only [shortEscapes, List.mem_cons, Prod.mk.injEq, List.not_mem_nil, or_false] at h
  rcases h with ⟨rfl, rfl⟩ | ⟨rfl, rfl⟩ | ⟨rfl, rfl⟩ | ⟨rfl, rfl⟩ | ⟨rfl, rfl⟩ | ⟨rfl, rfl⟩ |
    ⟨rfl, rfl⟩
  all_goals
    rw [parseString.eq_def]
    simp [escapeUnit, shortEscapes, parseUnit]
    cases parseString input <;> rfl

theorem parseString_quoteUnit (u : UInt16) (input : JsString) :
    parseString (quoteUnit u ++ input) = parseUnit u input := by
  rw [quoteUnit]
  split
  · next escape letter hfind =>
      have hmem := List.mem_of_find?_eq_some hfind
      have hu : escape = u := by simpa using List.find?_some hfind
      subst hu
      exact parseString_short hmem input
  · next hfind =>
      split_ifs with hplain
      · exact parseString_escape u input
      · have hnot := List.find?_eq_none.mp hfind
        refine parseString_literal ?_ ?_ (fun hcontrol => hplain (by simp [hcontrol])) input
        · rintro rfl
          exact absurd (hnot (0x22, 0x22) (by simp [shortEscapes])) (by simp)
        · rintro rfl
          exact absurd (hnot (0x5c, 0x5c) (by simp [shortEscapes])) (by simp)

theorem surrogate_noControl {u : UInt16}
    (h : isHighSurrogate u = true ∨ isLowSurrogate u = true) : ¬ u < 0x20 := by
  simp only [isHighSurrogate, isLowSurrogate, Bool.and_eq_true, decide_eq_true_eq,
    UInt16.le_iff_toNat_le, UInt16.lt_iff_toNat_lt, UInt16.reduceToNat] at h ⊢
  omega

theorem parseString_quoteUnits (s rest : JsString) :
    parseString (quoteUnits s ++ 0x22 :: rest) = some (s, rest) := by
  induction s using quoteUnits.induct with
  | case1 => exact parseString_close rest
  | case2 u =>
      rw [quoteUnits, parseString_quoteUnit, parseUnit, parseString_close]
      rfl
  | case3 u v tail hpair ih =>
      obtain ⟨hhigh, hlow⟩ := Bool.and_eq_true_iff.mp hpair
      obtain ⟨hu, hu'⟩ := surrogate_literal (.inl hhigh)
      obtain ⟨hv, hv'⟩ := surrogate_literal (.inr hlow)
      rw [quoteUnits, if_pos hpair, List.cons_append, List.cons_append,
        parseString_literal hu hu' (surrogate_noControl (.inl hhigh)), parseUnit,
        parseString_literal hv hv' (surrogate_noControl (.inr hlow)), parseUnit, ih]
      rfl
  | case4 u v tail hpair ih =>
      rw [quoteUnits, if_neg hpair, List.append_assoc, parseString_quoteUnit, parseUnit, ih]
      rfl

/-! ## Values are read back -/

section RoundTrip

variable {ν : Type}

mutual

/-- How deep a value is, in levels and parts. -/
def Value.depth : Value ν → Nat
  | .array (item :: items) => item.depth + itemsDepth items + 1
  | .object ((_, value) :: entries) => value.depth + entriesDepth entries + 1
  | _ => 1

def itemsDepth : List (Value ν) → Nat
  | [] => 1
  | item :: items => item.depth + itemsDepth items + 1

def entriesDepth : List (JsString × Value ν) → Nat
  | [] => 1
  | (_, value) :: entries => value.depth + entriesDepth entries + 1

end

variable (reader : NumberReader ν)

/-- A text whose first unit is no white space. -/
theorem skipSpaces_cons {u : UInt16} (hu : isSpace u = false) (rest : JsString) :
    skipSpaces (u :: rest) = u :: rest := by
  simp [skipSpaces, hu]

theorem isNumeralUnit_of_isNumberUnit {u : UInt16} (h : isNumberUnit u = true) :
    isNumeralUnit u = true := by
  simp [isNumeralUnit, h]

theorem isNumeralUnit_delimiter {u : UInt16} (h : u = 0x2c ∨ u = 0x5d ∨ u = 0x7d) :
    isNumeralUnit u = false := by
  rcases h with rfl | rfl | rfl
  all_goals decide

/-- A number in front of a delimiter. -/
theorem takeWhile_number {token rest : JsString} (htoken : ∀ u ∈ token, isNumberUnit u = true)
    (hrest : Delimited rest) :
    (token ++ rest).takeWhile isNumeralUnit = token ∧
      (token ++ rest).dropWhile isNumeralUnit = rest := by
  have htoken' : ∀ u ∈ token, isNumeralUnit u = true := fun u hu =>
    isNumeralUnit_of_isNumberUnit (htoken u hu)
  have hstop : rest.takeWhile isNumeralUnit = [] ∧ rest.dropWhile isNumeralUnit = rest := by
    cases rest with
    | nil => exact ⟨rfl, rfl⟩
    | cons u rest =>
        have hu := isNumeralUnit_delimiter (hrest u rfl)
        exact ⟨by simp [hu], by simp [hu]⟩
  constructor
  · rw [List.takeWhile_append_of_pos htoken', hstop.1, List.append_nil]
  · rw [List.dropWhile_append_of_pos htoken', hstop.2]

theorem parseScalar_number (n : ν) {rest : JsString} (hrest : Delimited rest) :
    parseScalar reader (reader.text n ++ rest) = some (.number n, rest) := by
  obtain ⟨htake, hdrop⟩ := takeWhile_number (reader.units n) hrest
  obtain ⟨u, tail, htext⟩ := List.exists_cons_of_ne_nil (reader.nonempty n)
  have hu : isNumberUnit u = true := reader.units n u (by rw [htext]; exact List.mem_cons_self)
  have hword : ∀ k word, word.head?.all (fun v => !isNumberUnit v) = true → word ≠ [] →
      (reader.text n ++ rest).take (k + 1) ≠ word := by
    rintro k word hhead hne rfl
    simp [htext, hu] at hhead
  unfold parseScalar
  rw [if_neg (hword 3 _ (by decide) (by decide)), if_neg (hword 3 _ (by decide) (by decide)),
    if_neg (hword 4 _ (by decide) (by decide)), htake, hdrop, reader.read_text]
  rfl

theorem isSpace_number {u : UInt16} (h : isNumberUnit u = true) :
    isSpace u = false ∧ u ≠ 0x22 ∧ u ≠ 0x5b ∧ u ≠ 0x7b := by
  have hnot : ∀ v ∈ [0x20, 0x09, 0x0a, 0x0d, 0x22, 0x5b, 0x7b], u ≠ v := by
    intro v hv hsame
    subst hsame
    revert h
    simp only [List.mem_cons, List.not_mem_nil, or_false] at hv
    rcases hv with rfl | rfl | rfl | rfl | rfl | rfl | rfl
    all_goals decide
  simp only [List.forall_mem_cons] at hnot
  simp [isSpace, hnot]

/-- A member is read when its value is. -/
theorem parseMember_quote (value : JsString → Option (Value ν × JsString)) (key text : JsString) :
    parseMember value (quote key ++ 0x3a :: text) =
      (value text).map fun (v, rest) => ((key, v), rest) := by
  unfold parseMember
  have hskip : ∀ rest : JsString, skipSpaces (0x3a :: rest) = 0x3a :: rest :=
    fun rest => skipSpaces_cons (by decide) rest
  simp only [quote, List.cons_append, List.append_assoc, List.nil_append]
  rw [skipSpaces_cons (by decide)]
  simp only [if_true, parseString_quoteUnits, Option.bind_eq_bind, Option.bind_some, hskip]
  cases value text <;> rfl

/-- The first unit of a value is neither white space nor a bracket that closes. -/
theorem stringify_first (v : Value ν) (rest : JsString) :
    ∃ u tail, stringify reader.toNumberText v ++ rest = u :: tail ∧ isSpace u = false ∧
      u ≠ 0x5d := by
  obtain ⟨u, tail, htext, hkind⟩ := stringify_head reader.toNumberText v
  have hseven : v.kind ≠ 7 := by
    match v with
    | .null | .bool true | .bool false | .number _ | .string _ | .array _ | .object _ =>
        simp [Value.kind]
  refine ⟨u, tail ++ rest, by rw [htext, List.cons_append], ?_, ?_⟩
  · by_contra hspace
    simp only [isSpace, Bool.not_eq_false, Bool.or_eq_true, beq_iff_eq] at hspace
    rcases hspace with ((rfl | rfl) | rfl) | rfl
    all_goals exact hseven (hkind.symm.trans (by decide))
  · rintro rfl
    exact hseven (hkind.symm.trans (by decide))

mutual

/-- Values in front of delimiters. -/
theorem parseValue_stringify (v : Value ν) (fuel : Nat) (hfuel : v.depth ≤ fuel)
    {rest : JsString} (hrest : Delimited rest) :
    parseValue reader fuel (stringify reader.toNumberText v ++ rest) = some (v, rest) := by
  match fuel, v with
  | 0, .null | 0, .bool _ | 0, .number _ | 0, .string _ | 0, .array [] | 0, .object []
  | 0, .array (_ :: _) | 0, .object (_ :: _) => simp [Value.depth] at hfuel
  | fuel + 1, .null => rfl
  | fuel + 1, .bool true => rfl
  | fuel + 1, .bool false => rfl
  | fuel + 1, .number n =>
      obtain ⟨u, tail, htext⟩ := List.exists_cons_of_ne_nil (reader.nonempty n)
      have hunit := isSpace_number (reader.units n u (by rw [htext]; exact List.mem_cons_self))
      have hscalar := parseScalar_number reader n hrest
      rw [htext, List.cons_append] at hscalar
      rw [stringify, htext, List.cons_append, parseValue, skipSpaces_cons hunit.1]
      simp only [hunit.2.1, hunit.2.2.1, hunit.2.2.2, if_false]
      exact hscalar
  | fuel + 1, .string s =>
      rw [stringify, quote, List.cons_append, List.append_assoc, List.singleton_append, parseValue,
        skipSpaces_cons (by decide)]
      simp only [if_true, parseString_quoteUnits, Option.map_some]
  | fuel + 1, .array [] => rfl
  | fuel + 1, .array (item :: items) =>
      simp only [Value.depth] at hfuel
      have hitem := parseValue_stringify item fuel (by omega)
        (@delimited_items _ reader.toNumberText items rest)
      have hitems := parseItems_stringify items fuel (by omega) rest
      obtain ⟨u, tail, hfirst, hspace, hclose⟩ := stringify_first reader item
        (stringifyItems reader.toNumberText items ++ rest)
      rw [stringify, List.cons_append, List.append_assoc, parseValue, skipSpaces_cons (by decide)]
      rw [hfirst] at hitem ⊢
      simp only [skipSpaces_cons hspace, List.head?_cons, Option.some.injEq, hclose, if_false]
      simp [hitem, hitems]
  | fuel + 1, .object [] => rfl
  | fuel + 1, .object ((key, value) :: entries) =>
      simp only [Value.depth] at hfuel
      have hvalue := parseValue_stringify value fuel (by omega)
        (@delimited_entries _ reader.toNumberText entries rest)
      have hentries := parseEntries_stringify entries fuel (by omega) rest
      have hmember := parseMember_quote (parseValue reader fuel) key
        (stringify reader.toNumberText value ++
          (stringifyEntries reader.toNumberText entries ++ rest))
      rw [hvalue] at hmember
      rw [stringify, List.cons_append, List.append_assoc, List.cons_append, List.append_assoc,
        parseValue, skipSpaces_cons (by decide)]
      have hquote : skipSpaces (quote key ++ 0x3a :: (stringify reader.toNumberText value ++
          (stringifyEntries reader.toNumberText entries ++ rest))) =
          quote key ++ 0x3a :: (stringify reader.toNumberText value ++
            (stringifyEntries reader.toNumberText entries ++ rest)) := by
        rw [quote, List.cons_append, skipSpaces_cons (by decide)]
      have hhead : (quote key ++ 0x3a :: (stringify reader.toNumberText value ++
          (stringifyEntries reader.toNumberText entries ++ rest))).head? = some 0x22 := by
        rw [quote]
        rfl
      simp only [hquote, hhead]
      simp [hmember, hentries]

theorem parseItems_stringify (items : List (Value ν)) (fuel : Nat)
    (hfuel : itemsDepth items ≤ fuel) (rest : JsString) :
    parseItems reader fuel (stringifyItems reader.toNumberText items ++ rest) =
      some (items, rest) := by
  match fuel, items with
  | 0, [] | 0, _ :: _ => simp [itemsDepth] at hfuel
  | fuel + 1, [] => rfl
  | fuel + 1, item :: items =>
      simp only [itemsDepth] at hfuel
      have hitem := parseValue_stringify item fuel (by omega)
        (@delimited_items _ reader.toNumberText items rest)
      have hitems := parseItems_stringify items fuel (by omega) rest
      rw [stringifyItems, List.cons_append, List.append_assoc, parseItems,
        skipSpaces_cons (by decide)]
      simp [hitem, hitems]

theorem parseEntries_stringify (entries : List (JsString × Value ν)) (fuel : Nat)
    (hfuel : entriesDepth entries ≤ fuel) (rest : JsString) :
    parseEntries reader fuel (stringifyEntries reader.toNumberText entries ++ rest) =
      some (entries, rest) := by
  match fuel, entries with
  | 0, [] | 0, _ :: _ => simp [entriesDepth] at hfuel
  | fuel + 1, [] => rfl
  | fuel + 1, (key, value) :: entries =>
      simp only [entriesDepth] at hfuel
      have hvalue := parseValue_stringify value fuel (by omega)
        (@delimited_entries _ reader.toNumberText entries rest)
      have hentries := parseEntries_stringify entries fuel (by omega) rest
      have hmember := parseMember_quote (parseValue reader fuel) key
        (stringify reader.toNumberText value ++
          (stringifyEntries reader.toNumberText entries ++ rest))
      rw [hvalue] at hmember
      rw [stringifyEntries, List.cons_append, List.append_assoc, List.cons_append,
        List.append_assoc, parseEntries, skipSpaces_cons (by decide)]
      simp [hmember, hentries]

end

mutual

/-- A value is no deeper than its text is long. -/
theorem depth_le_length (v : Value ν) :
    v.depth ≤ (stringify reader.toNumberText v).length := by
  match v with
  | .null | .bool true | .bool false =>
      simp only [Value.depth, stringify]
      decide
  | .string _ | .array [] | .object [] => simp [Value.depth, stringify, quote]
  | .number n =>
      have hpos := List.length_pos_iff.mpr (reader.nonempty n)
      simp only [Value.depth, stringify]
      omega
  | .array (item :: items) =>
      have hitem := depth_le_length item
      have hitems := itemsDepth_le_length items
      simp only [Value.depth, stringify, List.length_cons, List.length_append]
      omega
  | .object ((key, value) :: entries) =>
      have hvalue := depth_le_length value
      have hentries := entriesDepth_le_length entries
      simp only [Value.depth, stringify, List.length_cons, List.length_append]
      omega

theorem itemsDepth_le_length (items : List (Value ν)) :
    itemsDepth items ≤ (stringifyItems reader.toNumberText items).length := by
  match items with
  | [] => simp [itemsDepth, stringifyItems]
  | item :: items =>
      have hitem := depth_le_length item
      have hitems := itemsDepth_le_length items
      simp only [itemsDepth, stringifyItems, List.length_cons, List.length_append]
      omega

theorem entriesDepth_le_length (entries : List (JsString × Value ν)) :
    entriesDepth entries ≤ (stringifyEntries reader.toNumberText entries).length := by
  match entries with
  | [] => simp [entriesDepth, stringifyEntries]
  | (key, value) :: entries =>
      have hvalue := depth_le_length value
      have hentries := entriesDepth_le_length entries
      simp only [entriesDepth, stringifyEntries, List.length_cons, List.length_append]
      omega

end

/-- **What is printed is read back.** -/
theorem parse_stringify (v : Value ν) :
    parse reader (stringify reader.toNumberText v) = some v := by
  have hfuel : v.depth ≤ (stringify reader.toNumberText v).length + 1 :=
    (depth_le_length reader v).trans (Nat.le_succ _)
  have hnil : Delimited [] := by simp [Delimited]
  have hparse := parseValue_stringify reader v _ hfuel hnil
  rw [List.append_nil] at hparse
  rw [parse, hparse]
  rfl

end RoundTrip

end Json
