import DataflowEditor.Json.Draft
import DataflowEditor.Text.Integer
import DataflowEditor.Text.Printable

/-! # Internet addresses

An address has four octets, written in decimal with points, or eight groups of sixteen bits, written
in hexadecimal with colons. One run of groups that are zero may be left out between two colons, and
the last two groups may be written as four octets. The text of an address is canonical: the first of
the longest runs of at least two zeros is left out, and only an address that wraps one of four
octets ends in octets.
-/

namespace DataflowEditor

inductive IpAddress where
  | v4 (octets : List Nat)
  | v6 (groups : List Nat)
deriving DecidableEq, Inhabited

namespace IpAddress

/-! ## Reading -/

/-- A number of at most three digits that fits an octet, without a zero in front, and the text
behind it. -/
def readOctet (text : List Char) : Option (Nat × List Char) :=
  let digits := text.takeWhile Char.isDigit
  let value := digits.foldl (fun n c => 10 * n + Text.digitValue c) 0
  if digits.isEmpty || 3 < digits.length || 255 < value then none
  else if digits.head? = some '0' && 1 < digits.length then none
  else some (value, text.dropWhile Char.isDigit)

/-- A group of at most four hexadecimal digits. -/
def readGroup (text : List Char) : Option (Nat × List Char) :=
  let isHex (c : Char) : Bool := (Draft.hexValue? c).isSome
  let digits := text.takeWhile isHex
  if digits.isEmpty || 4 < digits.length then none
  else
    let value := digits.foldl (fun n c => 16 * n + (Draft.hexValue? c).getD 0) 0
    some (value, text.dropWhile isHex)

/-- Pass a mark. -/
def behindMark? (mark : Char) : List Char → Option (List Char)
  | c :: rest => if c = mark then some rest else none
  | [] => none

/-- Four octets with points between them. -/
def readOctets (text : List Char) : Option (List Nat × List Char) := do
  let (a, text) ← readOctet text
  let (b, text) ← readOctet (← behindMark? '.' text)
  let (c, text) ← readOctet (← behindMark? '.' text)
  let (d, text) ← readOctet (← behindMark? '.' text)
  some ([a, b, c, d], text)

/-- Octets as two groups. -/
def pairOctets : List Nat → List Nat
  | a :: b :: rest => (256 * a + b) :: pairOctets rest
  | _ => []

/-- What groups were read, whether the last two came from octets, and the text behind them. -/
structure Groups where
  groups : List Nat
  endsInOctets : Bool
  rest : List Char

/-- Groups with colons between them, as many as there are up to `limit`. -/
def readGroups (isFirst : Bool) (limit : Nat) (text : List Char) : Groups :=
  match limit with
  | 0 => ⟨[], false, text⟩
  | limit + 1 =>
    match if isFirst then some text else behindMark? ':' text with
    | none => ⟨[], false, text⟩
    | some inner =>
      match if limit = 0 then none else readOctets inner with
      | some (octets, rest) => ⟨pairOctets octets, true, rest⟩
      | none =>
        match readGroup inner with
        | none => ⟨[], false, text⟩
        | some (group, rest) =>
          let more := readGroups false limit rest
          { more with groups := group :: more.groups }

/-- Eight groups, or fewer with the run of zeros left out. -/
def readV6 (text : List Char) : Option (List Nat × List Char) :=
  let head := readGroups true 8 text
  if head.groups.length = 8 then some (head.groups, head.rest)
  else if head.endsInOctets then none
  else match head.rest with
    | ':' :: ':' :: rest =>
      let tail := readGroups true (7 - head.groups.length) rest
      let zeros := List.replicate (8 - head.groups.length - tail.groups.length) 0
      some (head.groups ++ zeros ++ tail.groups, tail.rest)
    | _ => none

def ofText? (text : String) : Option IpAddress :=
  match readOctets text.toList with
  | some (octets, []) => some (.v4 octets)
  | some _ => none
  | none =>
    match readV6 text.toList with
    | some (groups, []) => some (.v6 groups)
    | _ => none

/-! ## Writing -/

def joinOctets (octets : List Nat) : String :=
  ".".intercalate (octets.map Text.decimal)

def joinGroups (groups : List Nat) : String :=
  ":".intercalate (groups.map fun group => String.ofList (Text.hexadecimal group))

/-- The number of zeros in front. -/
def zerosAhead (groups : List Nat) : Nat :=
  (groups.takeWhile (· = 0)).length

/-- The first of the longest runs of zeros: where it begins and how long it is. -/
def longestZeros (groups : List Nat) : Nat × Nat :=
  (List.range groups.length).foldl (fun best start =>
    let length := zerosAhead (groups.drop start)
    if best.2 < length then (start, length) else best) (0, 0)

def v6Text (groups : List Nat) : String :=
  let (start, length) := longestZeros groups
  if 1 < length then
    joinGroups (groups.take start) ++ "::" ++ joinGroups (groups.drop (start + length))
  else joinGroups groups

def toText : IpAddress → String
  | .v4 octets => joinOctets octets
  | .v6 [0, 0, 0, 0, 0, 0xffff, high, low] =>
    "::ffff:" ++ joinOctets [high / 256, high % 256, low / 256, low % 256]
  | .v6 groups => v6Text groups

/-- The text of a socket: the address with a number behind it. -/
def socketText (address : IpAddress) (number : Nat) : String :=
  match address with
  | .v4 _ => address.toText ++ ":" ++ Text.decimal number
  | .v6 _ => "[" ++ address.toText ++ "]:" ++ Text.decimal number

end IpAddress

end DataflowEditor
