import MuniRag.Lib.Json

/-!
# Values through JSON

What comes back of a JavaScript value that is written by `JSON.stringify` and read again:
members without a value are dropped, items without one and numbers that are not finite become
`null`, and a date becomes its text.  A value comes back as it was exactly when it has none of
these in it (`stored_eq_iff`).  Functions, symbols and objects of other classes are left out.
-/

/-- A value over the numbers `ν`; an object lists its own keys in order, a date is its text. -/
inductive JsValue (ν : Type)
  | undefined
  | null
  | bool (b : Bool)
  | number (n : ν)
  | text (s : JsString)
  | array (items : List (JsValue ν))
  | object (members : List (JsString × JsValue ν))
  | date (iso : JsString)

namespace JsValue

variable {ν : Type} (finite : ν → Bool)

mutual

/-- What is read back of a value, if it is written at all. -/
def stored : JsValue ν → Option (JsValue ν)
  | .undefined => none
  | .null => some .null
  | .bool b => some (.bool b)
  | .number n => some (if finite n then .number n else .null)
  | .text s => some (.text s)
  | .array items => some (.array (storedItems items))
  | .object members => some (.object (storedMembers members))
  | .date iso => some (.text iso)

def storedItems : List (JsValue ν) → List (JsValue ν)
  | [] => []
  | item :: items => (stored item).getD .null :: storedItems items

def storedMembers : List (JsString × JsValue ν) → List (JsString × JsValue ν)
  | [] => []
  | (key, value) :: members =>
      match stored value with
      | none => storedMembers members
      | some value => (key, value) :: storedMembers members

end

mutual

/-- The value has nothing in it that JSON cannot give back. -/
def Plain : JsValue ν → Prop
  | .undefined => False
  | .null => True
  | .bool _ => True
  | .number n => finite n = true
  | .text _ => True
  | .array items => PlainItems items
  | .object members => PlainMembers members
  | .date _ => False

def PlainItems : List (JsValue ν) → Prop
  | [] => True
  | item :: items => Plain item ∧ PlainItems items

def PlainMembers : List (JsString × JsValue ν) → Prop
  | [] => True
  | (_, value) :: members => Plain value ∧ PlainMembers members

end

variable {finite}

theorem length_storedMembers_le : ∀ members : List (JsString × JsValue ν),
    (storedMembers finite members).length ≤ members.length
  | [] => le_rfl
  | (key, value) :: members => by
      have hrest := length_storedMembers_le members
      rw [storedMembers]
      cases stored finite value with
      | none => exact hrest.trans (Nat.le_succ _)
      | some value => exact Nat.succ_le_succ hrest

mutual

/-- **Through JSON.**  A value comes back as it was exactly when it is plain. -/
theorem stored_eq_iff : ∀ value : JsValue ν, stored finite value = some value ↔ Plain finite value
  | .undefined => by simp [stored, Plain]
  | .null => by simp [stored, Plain]
  | .bool b => by simp [stored, Plain]
  | .number n => by
      cases hn : finite n <;> simp [stored, Plain, hn]
  | .text s => by simp [stored, Plain]
  | .array items => by
      have hitems := storedItems_eq_iff items
      simp [stored, Plain, hitems]
  | .object members => by
      have hmembers := storedMembers_eq_iff members
      simp [stored, Plain, hmembers]
  | .date iso => by simp [stored, Plain]

theorem storedItems_eq_iff : ∀ items : List (JsValue ν),
    storedItems finite items = items ↔ PlainItems finite items
  | [] => by simp [storedItems, PlainItems]
  | item :: items => by
      have hitem := stored_eq_iff item
      have hitems := storedItems_eq_iff items
      rw [storedItems, PlainItems, List.cons.injEq, hitems, ← hitem]
      refine and_congr_left fun _ => ?_
      cases item <;> simp [stored]

theorem storedMembers_eq_iff : ∀ members : List (JsString × JsValue ν),
    storedMembers finite members = members ↔ PlainMembers finite members
  | [] => by simp [storedMembers, PlainMembers]
  | (key, value) :: members => by
      have hvalue := stored_eq_iff value
      have hmembers := storedMembers_eq_iff members
      rw [storedMembers, PlainMembers, ← hvalue]
      cases hstored : stored finite value with
      | none =>
          -- A dropped member makes the list shorter.
          have hlength := @length_storedMembers_le _ finite members
          refine iff_of_false (fun h => ?_) (by simp)
          have hsame := congrArg List.length h
          simp only [List.length_cons] at hsame
          omega
      | some other =>
          simp [hmembers]

end

mutual

theorem plain_of_stored : ∀ {value other : JsValue ν}, stored finite value = some other →
    Plain finite other
  | .undefined, other, h => by simp [stored] at h
  | .null, other, h => by
      obtain rfl := Option.some.inj h
      exact trivial
  | .bool b, other, h => by
      obtain rfl := Option.some.inj h
      exact trivial
  | .number n, other, h => by
      obtain rfl := Option.some.inj h
      cases hn : finite n
      · exact trivial
      · exact hn
  | .text s, other, h => by
      obtain rfl := Option.some.inj h
      exact trivial
  | .array items, other, h => by
      obtain rfl := Option.some.inj h
      exact plainItems_storedItems items
  | .object members, other, h => by
      obtain rfl := Option.some.inj h
      exact plainMembers_storedMembers members
  | .date iso, other, h => by
      obtain rfl := Option.some.inj h
      exact trivial

theorem plainItems_storedItems : ∀ items : List (JsValue ν),
    PlainItems finite (storedItems finite items)
  | [] => trivial
  | item :: items => by
      refine ⟨?_, plainItems_storedItems items⟩
      cases hitem : stored finite item with
      | none => exact trivial
      | some other => exact plain_of_stored hitem

theorem plainMembers_storedMembers : ∀ members : List (JsString × JsValue ν),
    PlainMembers finite (storedMembers finite members)
  | [] => trivial
  | (key, value) :: members => by
      rw [storedMembers]
      cases hvalue : stored finite value with
      | none => exact plainMembers_storedMembers members
      | some other => exact ⟨plain_of_stored hvalue, plainMembers_storedMembers members⟩

end

/-- What came back once comes back again. -/
theorem storedMembers_storedMembers (members : List (JsString × JsValue ν)) :
    storedMembers finite (storedMembers finite members) = storedMembers finite members :=
  (storedMembers_eq_iff _).mpr (plainMembers_storedMembers members)

end JsValue
