import MuniRag.Text

/-!
# JSON values and their texts

`JSON.stringify` without a gap, on values that come from a JSON text.  The text of
a value determines the value (`stringify_injective`): a string is read back up to
its closing quote, and every other value ends before a delimiter.

How a number is printed is left open but for what the standard promises of it:
different numbers have different texts, made of digits, signs, a point and `e`.
-/

namespace Json

/-- A JSON value; an object lists its keys in the order of the object. -/
inductive Value (ν : Type)
  | null
  | bool (b : Bool)
  | number (n : ν)
  | string (s : JsString)
  | array (items : List (Value ν))
  | object (entries : List (JsString × Value ν))

/-- Induction over a value, its items and the values of its entries. -/
@[elab_as_elim]
theorem Value.induction {ν : Type} {P : Value ν → Prop} (null : P .null) (bool : ∀ b, P (.bool b))
    (number : ∀ n, P (.number n)) (string : ∀ s, P (.string s))
    (array : ∀ items, (∀ item ∈ items, P item) → P (.array items))
    (object : ∀ entries, (∀ entry ∈ entries, P entry.2) → P (.object entries)) (v : Value ν) :
    P v :=
  match v with
  | .null => null
  | .bool b => bool b
  | .number n => number n
  | .string s => string s
  | .array items => array items fun item _ =>
      Value.induction null bool number string array object item
  | .object entries => object entries fun entry _ =>
      Value.induction null bool number string array object entry.2
termination_by sizeOf v
decreasing_by
  · have hitem := List.sizeOf_lt_of_mem ‹item ∈ items›
    simp only [Value.array.sizeOf_spec]
    omega
  · have hentry := List.sizeOf_lt_of_mem ‹entry ∈ entries›
    have hvalue : sizeOf entry.2 < sizeOf entry := by
      cases entry
      simp only [Prod.mk.sizeOf_spec]
      omega
    simp only [Value.object.sizeOf_spec]
    omega

def isNumberUnit (u : UInt16) : Bool :=
  isDecimalDigit u || u == 0x2b || u == 0x2d || u == 0x2e || u == 0x65

/-- `Number::toString` on the finite numbers, `-0` being `0`. -/
structure NumberText (ν : Type) where
  text : ν → JsString
  injective : Function.Injective text
  units : ∀ n, ∀ u ∈ text n, isNumberUnit u = true
  nonempty : ∀ n, text n ≠ []

/-! ## Strings -/

def isHighSurrogate (u : UInt16) : Bool := 0xd800 ≤ u && u ≤ 0xdbff

def isLowSurrogate (u : UInt16) : Bool := 0xdc00 ≤ u && u ≤ 0xdfff

/-- `UnicodeEscape`. -/
def unicodeEscape (u : UInt16) : JsString :=
  [0x5c, 0x75, hexUnit (u.toNat / 4096), hexUnit (u.toNat / 256 % 16),
    hexUnit (u.toNat / 16 % 16), hexUnit (u.toNat % 16)]

/-- The short escapes: the unit and the letter that stands for it. -/
def shortEscapes : List (UInt16 × UInt16) :=
  [(0x08, 0x62), (0x09, 0x74), (0x0a, 0x6e), (0x0c, 0x66), (0x0d, 0x72), (0x22, 0x22),
    (0x5c, 0x5c)]

/-- One code unit that is no half of a pair. -/
def quoteUnit (u : UInt16) : JsString :=
  match shortEscapes.find? (·.1 == u) with
  | some (_, letter) => [0x5c, letter]
  | none =>
      if u < 0x20 || isHighSurrogate u || isLowSurrogate u then unicodeEscape u else [u]

def quoteUnits : JsString → JsString
  | [] => []
  | [u] => quoteUnit u
  | u :: v :: rest =>
      if isHighSurrogate u && isLowSurrogate v then u :: v :: quoteUnits rest
      else quoteUnit u ++ quoteUnits (v :: rest)

/-- `QuoteJSONString`. -/
def quote (s : JsString) : JsString := 0x22 :: (quoteUnits s ++ [0x22])

/-! ## Values -/

section Stringify

variable {ν : Type} (numbers : NumberText ν)

mutual

/-- `JSON.stringify`. -/
def stringify : Value ν → JsString
  | .null => js "null"
  | .bool true => js "true"
  | .bool false => js "false"
  | .number n => numbers.text n
  | .string s => quote s
  | .array [] => [0x5b, 0x5d]
  | .array (item :: items) => 0x5b :: (stringify item ++ stringifyItems items)
  | .object [] => [0x7b, 0x7d]
  | .object ((key, value) :: entries) =>
      0x7b :: (quote key ++ 0x3a :: (stringify value ++ stringifyEntries entries))

/-- The items after the first one, and the bracket. -/
def stringifyItems : List (Value ν) → JsString
  | [] => [0x5d]
  | item :: items => 0x2c :: (stringify item ++ stringifyItems items)

/-- The entries after the first one, and the brace. -/
def stringifyEntries : List (JsString × Value ν) → JsString
  | [] => [0x7d]
  | (key, value) :: entries =>
      0x2c :: (quote key ++ 0x3a :: (stringify value ++ stringifyEntries entries))

end

end Stringify

/-! ## Reading strings back -/

/-- The string up to its closing quote, and what follows it. -/
def readString : JsString → Option (JsString × JsString)
  | [] => none
  | u :: rest =>
      if u = 0x22 then some ([], rest)
      else if u = 0x5c then
        match rest with
        | 0x75 :: a :: b :: c :: d :: rest => do
            let a ← hexDigit a
            let b ← hexDigit b
            let c ← hexDigit c
            let d ← hexDigit d
            let (s, rest) ← readString rest
            pure ((a * 4096 + b * 256 + c * 16 + d).toUInt16 :: s, rest)
        | letter :: rest => do
            let (unit, _) ← shortEscapes.find? (·.2 == letter)
            let (s, rest) ← readString rest
            pure (unit :: s, rest)
        | [] => none
      else do
        let (s, rest) ← readString rest
        pure (u :: s, rest)

/-- One unit in front of what is read. -/
def readUnit (u : UInt16) (input : JsString) : Option (JsString × JsString) :=
  (readString input).map fun (s, rest) => (u :: s, rest)

theorem readString_close (input : JsString) : readString (0x22 :: input) = some ([], input) := by
  rw [readString.eq_def]
  rfl

theorem readString_literal {u : UInt16} (hquote : u ≠ 0x22) (hescape : u ≠ 0x5c)
    (input : JsString) : readString (u :: input) = readUnit u input := by
  rw [readString.eq_def]
  simp only [hquote, hescape, if_false]
  rw [readUnit]
  cases readString input <;> rfl

theorem readString_escape (u : UInt16) (input : JsString) :
    readString (unicodeEscape u ++ input) = readUnit u input := by
  have hu : u.toNat < 65536 := u.toNat_lt
  have hvalue : (u.toNat / 4096 * 4096 + u.toNat / 256 % 16 * 256 + u.toNat / 16 % 16 * 16 +
      u.toNat % 16).toUInt16 = u := by
    have hsum : u.toNat / 4096 * 4096 + u.toNat / 256 % 16 * 256 + u.toNat / 16 % 16 * 16 +
        u.toNat % 16 = u.toNat := by omega
    rw [hsum]
    exact UInt16.ofNat_toNat
  simp only [unicodeEscape, List.cons_append, List.nil_append, readString]
  rw [hexDigit_hexUnit (by omega), hexDigit_hexUnit (by omega), hexDigit_hexUnit (by omega),
    hexDigit_hexUnit (by omega)]
  simp only [Option.bind_eq_bind, Option.bind_some, hvalue, readUnit]
  cases readString input <;> rfl

theorem readString_short {u letter : UInt16} (h : (u, letter) ∈ shortEscapes) (input : JsString) :
    readString (0x5c :: letter :: input) = readUnit u input := by
  simp only [shortEscapes, List.mem_cons, Prod.mk.injEq, List.not_mem_nil, or_false] at h
  rcases h with ⟨rfl, rfl⟩ | ⟨rfl, rfl⟩ | ⟨rfl, rfl⟩ | ⟨rfl, rfl⟩ | ⟨rfl, rfl⟩ | ⟨rfl, rfl⟩ |
    ⟨rfl, rfl⟩
  all_goals
    rw [readString.eq_def]
    simp [shortEscapes, readUnit]
    cases readString input <;> rfl

theorem readString_quoteUnit (u : UInt16) (input : JsString) :
    readString (quoteUnit u ++ input) = readUnit u input := by
  rw [quoteUnit]
  split
  · next escape letter hfind =>
      have hmem := List.mem_of_find?_eq_some hfind
      have hu : escape = u := by simpa using List.find?_some hfind
      subst hu
      exact readString_short hmem input
  · next hfind =>
      split_ifs
      · exact readString_escape u input
      · have hnot := List.find?_eq_none.mp hfind
        refine readString_literal ?_ ?_ input
        · rintro rfl
          exact absurd (hnot (0x22, 0x22) (by simp [shortEscapes])) (by simp)
        · rintro rfl
          exact absurd (hnot (0x5c, 0x5c) (by simp [shortEscapes])) (by simp)

theorem surrogate_literal {u : UInt16} (h : isHighSurrogate u = true ∨ isLowSurrogate u = true) :
    u ≠ 0x22 ∧ u ≠ 0x5c := by
  constructor
  · rintro rfl
    exact absurd h (by decide)
  · rintro rfl
    exact absurd h (by decide)

/-- **Strings are read back.** -/
theorem readString_quoteUnits (s rest : JsString) :
    readString (quoteUnits s ++ 0x22 :: rest) = some (s, rest) := by
  induction s using quoteUnits.induct with
  | case1 => exact readString_close rest
  | case2 u =>
      rw [quoteUnits, readString_quoteUnit, readUnit, readString_close]
      rfl
  | case3 u v tail hpair ih =>
      obtain ⟨hhigh, hlow⟩ := Bool.and_eq_true_iff.mp hpair
      obtain ⟨hu, hu'⟩ := surrogate_literal (.inl hhigh)
      obtain ⟨hv, hv'⟩ := surrogate_literal (.inr hlow)
      rw [quoteUnits, if_pos hpair, List.cons_append, List.cons_append, readString_literal hu hu',
        readUnit, readString_literal hv hv', readUnit, ih]
      rfl
  | case4 u v tail hpair ih =>
      rw [quoteUnits, if_neg hpair, List.append_assoc, readString_quoteUnit, readUnit, ih]
      rfl

theorem quote_append_inj {s t r r' : JsString} (h : quote s ++ r = quote t ++ r') :
    s = t ∧ r = r' := by
  simp only [quote, List.cons_append, List.append_assoc, List.nil_append, List.cons.injEq,
    true_and] at h
  have hread := congrArg readString h
  rw [readString_quoteUnits, readString_quoteUnits] at hread
  exact Prod.mk.inj (Option.some.inj hread)

/-! ## Values end before a delimiter -/

/-- The text after a value: nothing, or a comma, a bracket or a brace. -/
def Delimited (rest : JsString) : Prop :=
  ∀ u ∈ rest.head?, u = 0x2c ∨ u = 0x5d ∨ u = 0x7d

theorem isNumberUnit_delimiter {u : UInt16} (h : u = 0x2c ∨ u = 0x5d ∨ u = 0x7d) :
    isNumberUnit u = false := by
  rcases h with rfl | rfl | rfl
  all_goals decide

/-- Number texts in front of delimiters. -/
theorem units_append_inj {a b r r' : JsString} (ha : ∀ u ∈ a, isNumberUnit u = true)
    (hb : ∀ u ∈ b, isNumberUnit u = true) (hr : Delimited r) (hr' : Delimited r')
    (h : a ++ r = b ++ r') : a = b ∧ r = r' := by
  have hstop : ∀ {r : JsString} {u : UInt16} {us : JsString}, Delimited r → r = u :: us →
      isNumberUnit u = false := by
    intro r u us hr hcons
    exact isNumberUnit_delimiter (hr u (by rw [hcons]; rfl))
  induction a generalizing b with
  | nil =>
      cases b with
      | nil => exact ⟨rfl, h⟩
      | cons v b =>
          have hnot := hstop hr h
          rw [hb v List.mem_cons_self] at hnot
          cases hnot
  | cons u a ih =>
      cases b with
      | nil =>
          have hnot := hstop hr' h.symm
          rw [ha u List.mem_cons_self] at hnot
          cases hnot
      | cons v b =>
          obtain ⟨rfl, htail⟩ := List.cons.inj h
          obtain ⟨rfl, hrest⟩ := ih (fun w hw => ha w (List.mem_cons_of_mem _ hw))
            (fun w hw => hb w (List.mem_cons_of_mem _ hw)) htail
          exact ⟨rfl, hrest⟩

section Injective

variable {ν : Type} {numbers : NumberText ν}

/-- The kinds of values that the first unit of a text tells apart. -/
def Value.kind : Value ν → Nat
  | .null => 0
  | .bool true => 1
  | .bool false => 2
  | .number _ => 3
  | .string _ => 4
  | .array _ => 5
  | .object _ => 6

def kindOf (u : UInt16) : Nat :=
  if u = 0x6e then 0 else if u = 0x74 then 1 else if u = 0x66 then 2 else if u = 0x22 then 4
  else if u = 0x5b then 5 else if u = 0x7b then 6 else if isNumberUnit u then 3 else 7

theorem kindOf_number {u : UInt16} (h : isNumberUnit u = true) : kindOf u = 3 := by
  have hnot : ∀ v ∈ [0x6e, 0x74, 0x66, 0x22, 0x5b, 0x7b], u ≠ v := by
    intro v hv hsame
    subst hsame
    revert h
    simp only [List.mem_cons, List.not_mem_nil, or_false] at hv
    rcases hv with rfl | rfl | rfl | rfl | rfl | rfl
    all_goals decide
  simp only [List.forall_mem_cons] at hnot
  simp [kindOf, hnot, h]

theorem stringify_head (numbers : NumberText ν) (v : Value ν) :
    ∃ u tail, stringify numbers v = u :: tail ∧ kindOf u = v.kind := by
  match v with
  | .null => exact ⟨_, _, rfl, rfl⟩
  | .bool true => exact ⟨_, _, rfl, rfl⟩
  | .bool false => exact ⟨_, _, rfl, rfl⟩
  | .number n =>
      obtain ⟨u, tail, htext⟩ := List.exists_cons_of_ne_nil (numbers.nonempty n)
      refine ⟨u, tail, by rw [stringify, htext], kindOf_number (numbers.units n u ?_)⟩
      rw [htext]
      exact List.mem_cons_self
  | .string s => exact ⟨_, _, by rw [stringify, quote], rfl⟩
  | .array [] => exact ⟨_, _, by rw [stringify], rfl⟩
  | .array (item :: items) => exact ⟨_, _, by rw [stringify], rfl⟩
  | .object [] => exact ⟨_, _, by rw [stringify], rfl⟩
  | .object ((key, value) :: entries) => exact ⟨_, _, by rw [stringify], rfl⟩

theorem kind_of_append {v w : Value ν} {r r' : JsString}
    (h : stringify numbers v ++ r = stringify numbers w ++ r') : v.kind = w.kind := by
  obtain ⟨u, tail, hv, hkind⟩ := stringify_head numbers v
  obtain ⟨u', tail', hw, hkind'⟩ := stringify_head numbers w
  rw [hv, hw] at h
  obtain ⟨rfl, _⟩ := List.cons.inj h
  exact hkind.symm.trans hkind'

/-- No value begins with a bracket that closes. -/
theorem append_ne_close {v : Value ν} {r r' : JsString} :
    stringify numbers v ++ r ≠ 0x5d :: r' := by
  intro h
  obtain ⟨u, tail, hv, hkind⟩ := stringify_head numbers v
  rw [hv] at h
  obtain ⟨rfl, _⟩ := List.cons.inj h
  have hnone : ∀ w : Value ν, w.kind ≠ 7 := by
    intro w
    match w with
    | .null | .bool true | .bool false | .number _ | .string _ | .array _ | .object _ =>
        simp [Value.kind]
  exact hnone v hkind.symm

theorem delimited_items (items : List (Value ν)) (r : JsString) :
    Delimited (stringifyItems numbers items ++ r) := by
  cases items with
  | nil => simp [Delimited, stringifyItems]
  | cons item items => simp [Delimited, stringifyItems]

theorem delimited_entries (entries : List (JsString × Value ν)) (r : JsString) :
    Delimited (stringifyEntries numbers entries ++ r) := by
  cases entries with
  | nil => simp [Delimited, stringifyEntries]
  | cons entry entries => simp [Delimited, stringifyEntries]

mutual

/-- Texts of values in front of delimiters. -/
theorem stringify_append_inj (v w : Value ν) {r r' : JsString} (hr : Delimited r)
    (hr' : Delimited r') (h : stringify numbers v ++ r = stringify numbers w ++ r') :
    v = w ∧ r = r' := by
  have hkind := kind_of_append h
  match v, w with
  | .null, .null => exact ⟨rfl, List.append_cancel_left h⟩
  | .bool true, .bool true => exact ⟨rfl, List.append_cancel_left h⟩
  | .bool false, .bool false => exact ⟨rfl, List.append_cancel_left h⟩
  | .number n, .number m =>
      rw [stringify, stringify] at h
      obtain ⟨htext, hrest⟩ := units_append_inj (numbers.units n) (numbers.units m) hr hr' h
      exact ⟨by rw [numbers.injective htext], hrest⟩
  | .string s, .string t =>
      rw [stringify, stringify] at h
      obtain ⟨rfl, hrest⟩ := quote_append_inj h
      exact ⟨rfl, hrest⟩
  | .array [], .array [] => exact ⟨rfl, List.append_cancel_left h⟩
  | .array (item :: items), .array (item' :: items') =>
      rw [stringify, stringify, List.cons_append, List.cons_append, List.append_assoc,
        List.append_assoc] at h
      obtain ⟨rfl, hitems⟩ := stringify_append_inj item item' (delimited_items items r)
        (delimited_items items' r') (List.cons.inj h).2
      obtain ⟨rfl, hrest⟩ := stringifyItems_append_inj items items' hitems
      exact ⟨rfl, hrest⟩
  | .array [], .array (item :: items) =>
      simp only [stringify, List.cons_append, List.append_assoc] at h
      exact absurd (List.cons.inj h).2.symm append_ne_close
  | .array (item :: items), .array [] =>
      simp only [stringify, List.cons_append, List.append_assoc] at h
      exact absurd (List.cons.inj h).2 append_ne_close
  | .object [], .object [] => exact ⟨rfl, List.append_cancel_left h⟩
  | .object ((key, value) :: entries), .object ((key', value') :: entries') =>
      rw [stringify, stringify] at h
      simp only [List.cons_append, List.append_assoc, List.cons.injEq, true_and] at h
      obtain ⟨rfl, hvalue⟩ := quote_append_inj h
      obtain ⟨rfl, hentries⟩ := stringify_append_inj value value' (delimited_entries entries r)
        (delimited_entries entries' r') (List.cons.inj hvalue).2
      obtain ⟨rfl, hrest⟩ := stringifyEntries_append_inj entries entries' hentries
      exact ⟨rfl, hrest⟩
  | .object [], .object ((key, value) :: entries) =>
      rw [stringify, stringify, quote] at h
      exact absurd (List.cons.inj (List.cons.inj h).2).1 (by decide)
  | .object ((key, value) :: entries), .object [] =>
      rw [stringify, stringify, quote] at h
      exact absurd (List.cons.inj (List.cons.inj h).2).1 (by decide)

theorem stringifyItems_append_inj (items items' : List (Value ν)) {r r' : JsString}
    (h : stringifyItems numbers items ++ r = stringifyItems numbers items' ++ r') :
    items = items' ∧ r = r' := by
  match items, items' with
  | [], [] => exact ⟨rfl, List.append_cancel_left h⟩
  | item :: items, item' :: items' =>
      rw [stringifyItems, stringifyItems, List.cons_append, List.cons_append, List.append_assoc,
        List.append_assoc] at h
      obtain ⟨rfl, hitems⟩ := stringify_append_inj item item' (delimited_items items r)
        (delimited_items items' r') (List.cons.inj h).2
      obtain ⟨rfl, hrest⟩ := stringifyItems_append_inj items items' hitems
      exact ⟨rfl, hrest⟩
  | [], item :: items =>
      rw [stringifyItems, stringifyItems] at h
      exact absurd (List.cons.inj h).1 (by decide)
  | item :: items, [] =>
      rw [stringifyItems, stringifyItems] at h
      exact absurd (List.cons.inj h).1 (by decide)

theorem stringifyEntries_append_inj (entries entries' : List (JsString × Value ν))
    {r r' : JsString}
    (h : stringifyEntries numbers entries ++ r = stringifyEntries numbers entries' ++ r') :
    entries = entries' ∧ r = r' := by
  match entries, entries' with
  | [], [] => exact ⟨rfl, List.append_cancel_left h⟩
  | (key, value) :: entries, (key', value') :: entries' =>
      rw [stringifyEntries, stringifyEntries] at h
      simp only [List.cons_append, List.append_assoc, List.cons.injEq, true_and] at h
      obtain ⟨rfl, hvalue⟩ := quote_append_inj h
      obtain ⟨rfl, hentries⟩ := stringify_append_inj value value' (delimited_entries entries r)
        (delimited_entries entries' r') (List.cons.inj hvalue).2
      obtain ⟨rfl, hrest⟩ := stringifyEntries_append_inj entries entries' hentries
      exact ⟨rfl, hrest⟩
  | [], (key, value) :: entries =>
      rw [stringifyEntries, stringifyEntries] at h
      exact absurd (List.cons.inj h).1 (by decide)
  | (key, value) :: entries, [] =>
      rw [stringifyEntries, stringifyEntries] at h
      exact absurd (List.cons.inj h).1 (by decide)

end

/-- **The text of a value determines the value.** -/
theorem stringify_injective : Function.Injective (stringify numbers) := by
  intro v w h
  have hempty : Delimited [] := fun _ hu => nomatch hu
  exact (stringify_append_inj v w hempty hempty (by rw [h])).1

end Injective

end Json
