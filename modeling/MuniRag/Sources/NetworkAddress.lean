import MuniRag.Lib.Segments
import MuniRag.Text

/-!
# Public network addresses

The fetcher of official pages connects only to addresses that
`isPublicNetworkAddress` judges public.  An IPv4 address is judged by its 32-bit
value, an IPv6 address by patterns on its text.  `parseAddress` is the meaning of a
text: the dotted form of IPv4, and the eight groups of IPv6 with at most one gap and
an optional dotted tail.  `net.isIP` accepts exactly the texts that have a meaning.
-/

namespace NetworkAddress

def dot : UInt16 := 0x2e

def colon : UInt16 := 0x3a

/-- The value of a text of decimal digits. -/
def decimal (text : JsString) : Option Nat :=
  if text ≠ [] ∧ text.all isDecimalDigit = true then
    some (text.foldl (fun n u => 10 * n + (u - 0x30).toNat) 0)
  else none

/-! ## The textual forms -/

/-- A byte of the dotted form: no leading zeros, at most 255. -/
def readByte (part : JsString) : Option Nat :=
  (decimal part).filter fun n => decide (n ≤ 255) && (part.length == 1 || part.head? != some 0x30)

def parseIPv4 (text : JsString) : Option (BitVec 32) :=
  match (text.splitOn dot).map readByte with
  | [some a, some b, some c, some d] =>
      some (BitVec.ofNat 32 (a * 2 ^ 24 + b * 2 ^ 16 + c * 2 ^ 8 + d))
  | _ => none

/-- A group of one to four hexadecimal digits. -/
def readGroup (piece : JsString) : Option Nat :=
  if piece ≠ [] ∧ piece.length ≤ 4 then (piece.mapM hexDigit).map ofDigits else none

/-- Groups of which the last may be a dotted tail, worth two groups. -/
def readPieces : List JsString → Option (List Nat)
  | [] => some []
  | [last] =>
      match parseIPv4 last with
      | some value => some [value.toNat / 2 ^ 16, value.toNat % 2 ^ 16]
      | none => (readGroup last).map fun group => [group]
  | piece :: rest => do
      let group ← readGroup piece
      let groups ← readPieces rest
      some (group :: groups)

/-- The groups in front of a gap. -/
def readFront (text : JsString) : Option (List Nat) :=
  if text = [] then some [] else (text.splitOn colon).mapM readGroup

/-- The groups behind a gap. -/
def readBack (text : JsString) : Option (List Nat) :=
  if text = [] then some [] else readPieces (text.splitOn colon)

/-- What stands before and after the first `::`. -/
def splitGap : JsString → Option (JsString × JsString)
  | u :: v :: rest =>
      if u = colon ∧ v = colon then some ([], rest)
      else (splitGap (v :: rest)).map fun parts => (u :: parts.1, parts.2)
  | _ => none

/-- The eight groups of the text of an IPv6 address. -/
def groupsOf (text : JsString) : Option (List Nat) :=
  match splitGap text with
  | none => (readPieces (text.splitOn colon)).filter fun groups => groups.length == 8
  | some (before, after) => do
      let front ← readFront before
      let back ← readBack after
      if front.length + back.length ≤ 7 then
        some (front ++ List.replicate (8 - (front.length + back.length)) 0 ++ back)
      else none

/-- The number that groups of 16 bits denote. -/
def ofGroups (groups : List Nat) : Nat := groups.foldl (fun n group => n * 2 ^ 16 + group) 0

def parseIPv6 (text : JsString) : Option (BitVec 128) :=
  (groupsOf text).map fun groups => BitVec.ofNat 128 (ofGroups groups)

inductive Address
  | v4 (value : BitVec 32)
  | v6 (value : BitVec 128)
  deriving DecidableEq

/-- The address that a text denotes. -/
def parseAddress (text : JsString) : Option Address :=
  match parseIPv4 text with
  | some value => some (.v4 value)
  | none => (parseIPv6 text).map .v6

/-- `net.isIP`. -/
def isIP (text : JsString) : Nat :=
  match parseAddress text with
  | some (.v4 _) => 4
  | some (.v6 _) => 6
  | none => 0

/-! ## The judgement of the source -/

/-- `ipv4`, on the dotted texts it is called with: the value in 32-bit words. -/
def ipv4 (value : JsString) : Option (BitVec 32) :=
  match (value.splitOn dot).map decimal with
  | [some a, some b, some c, some d] =>
      if a ≤ 255 ∧ b ≤ 255 ∧ c ≤ 255 ∧ d ≤ 255 then
        some ((BitVec.ofNat 32 a <<< 24) + (BitVec.ofNat 32 b <<< 16) +
          (BitVec.ofNat 32 c <<< 8) + BitVec.ofNat 32 d)
      else none
  | _ => none

def inRange (value : BitVec 32) (base : JsString) (bits : Nat) : Bool :=
  match ipv4 base with
  | none => false
  | some first =>
      let mask : BitVec 32 := if bits = 0 then 0 else BitVec.allOnes 32 <<< (32 - bits)
      value &&& mask == first &&& mask

/-- The fourteen ranges that are not public. -/
def reservedRanges : List (JsString × Nat) :=
  [(js "0.0.0.0", 8), (js "10.0.0.0", 8), (js "100.64.0.0", 10), (js "127.0.0.0", 8),
    (js "169.254.0.0", 16), (js "172.16.0.0", 12), (js "192.0.0.0", 24), (js "192.0.2.0", 24),
    (js "192.168.0.0", 16), (js "198.18.0.0", 15), (js "198.51.100.0", 24),
    (js "203.0.113.0", 24), (js "224.0.0.0", 4), (js "240.0.0.0", 4)]

/-- The text that `^::ffff:(\d+\.\d+\.\d+\.\d+)$` captures. -/
def mappedMatch (normalized : JsString) : Option JsString :=
  let tail := normalized.drop 7
  if normalized.take 7 = js "::ffff:" ∧ (tail.splitOn dot).length = 4 ∧
      (tail.splitOn dot).all (fun part => part != [] && part.all isDecimalDigit) = true then
    some tail
  else none

/-- `^(?:fc|fd|ff)` or `^fe[89ab]`. -/
def startsLocal (normalized : JsString) : Bool :=
  [js "fc", js "fd", js "ff"].contains (normalized.take 2) ||
    [js "fe8", js "fe9", js "fea", js "feb"].contains (normalized.take 3)

/-- `^2001:db8(?::|$)`. -/
def startsDocumentation (normalized : JsString) : Bool :=
  normalized == js "2001:db8" || normalized.take 9 == js "2001:db8:"

theorem mappedMatch_length {normalized tail : JsString} (h : mappedMatch normalized = some tail) :
    tail.length < normalized.length := by
  simp only [mappedMatch] at h
  split at h
  · rename_i hmatch
    have htail : normalized.drop 7 = tail := Option.some.inj h
    have hlength := congrArg List.length hmatch.1
    rw [List.length_take, show (js "::ffff:").length = 7 from by decide] at hlength
    rw [← htail, List.length_drop]
    omega
  · exact absurd h (by simp)

/-- `address.toLowerCase()`, on the texts of addresses. -/
def lower (address : JsString) : JsString := address.map lowerUnit

theorem lower_length (address : JsString) : (lower address).length = address.length :=
  List.length_map _

def isPublicNetworkAddress (address : JsString) : Bool :=
  if isIP address = 4 then
    match ipv4 address with
    | none => false
    | some value => !(reservedRanges.any fun range => inRange value range.1 range.2)
  else if isIP address = 6 then
    let normalized := lower address
    if normalized = js "::" ∨ normalized = js "::1" then false
    else
      match _hmatch : mappedMatch normalized with
      | some mapped => isPublicNetworkAddress mapped
      | none => !startsLocal normalized && !startsDocumentation normalized
  else false
termination_by address.length
decreasing_by
  exact (mappedMatch_length _hmatch).trans_le (le_of_eq (lower_length address))

end NetworkAddress
