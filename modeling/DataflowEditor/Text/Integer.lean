import DataflowEditor.Number.Double

/-! # Integers in text

Reading an integer from its decimal text: an optional sign, then ASCII digits, and nothing else.
Leading zeros are allowed, blanks and group marks are not. The characters are taken from left to
right, so a character that is no digit is reported only if the digits before it still fit. Numbers
are written in digits, or as English ordinals.
-/

namespace DataflowEditor.Text

/-- Why a text is not an integer of the wanted range. -/
inductive IntegerFault where
  | empty
  | invalidDigit
  | tooLarge
  | tooSmall
deriving DecidableEq, Inhabited

def IntegerFault.message : IntegerFault → String
  | .empty => "cannot parse integer from empty string"
  | .invalidDigit => "invalid digit found in string"
  | .tooLarge => "number too large to fit in target type"
  | .tooSmall => "number too small to fit in target type"

/-- The value of an ASCII digit. -/
def digitValue (c : Char) : Nat :=
  c.toNat - 48

/-- Continue a number that has come to `value` with the digits that follow. `overflow` reports a
number above `limit`. -/
def readDigits (limit : Nat) (overflow : IntegerFault) :
    Nat → List Char → Except IntegerFault Nat
  | value, [] => .ok value
  | value, c :: rest =>
    if c.isDigit then
      if 10 * value + digitValue c ≤ limit then
        readDigits limit overflow (10 * value + digitValue c) rest
      else .error overflow
    else .error .invalidDigit

/-- A sign is worth nothing without a digit. -/
def readMagnitude (limit : Nat) (overflow : IntegerFault) : List Char → Except IntegerFault Nat
  | [] => .error .invalidDigit
  | digits => readDigits limit overflow 0 digits

/-- Read a number up to `limit`. A minus sign is not a digit. -/
def readUnsigned (limit : Nat) : List Char → Except IntegerFault Nat
  | [] => .error .empty
  | '+' :: digits => readMagnitude limit .tooLarge digits
  | digits => readMagnitude limit .tooLarge digits

/-- Read an integer of 64 bits with a sign. -/
def readSigned : List Char → Except IntegerFault Int
  | [] => .error .empty
  | '-' :: digits => (readMagnitude halfWordCount .tooSmall digits).map fun n : Nat => -(n : Int)
  | '+' :: digits => (readMagnitude (halfWordCount - 1) .tooLarge digits).map Int.ofNat
  | digits => (readMagnitude (halfWordCount - 1) .tooLarge digits).map Int.ofNat

/-- The digits of a number, without leading zeros. -/
def decimal (n : Nat) : String :=
  String.ofList (Nat.toDigits 10 n)

/-- The digits of an integer, with a minus sign in front of a negative one. -/
def decimalInt : Int → String
  | .ofNat n => decimal n
  | .negSucc n => "-" ++ decimal (n + 1)

/-! ## Ordinals -/

/-- The ending of an ordinal. The teens of every hundred take `th`. -/
def ordinalEnding (n : Nat) : String :=
  if 11 ≤ n % 100 ∧ n % 100 ≤ 13 then "th"
  else match n % 10 with
    | 1 => "st"
    | 2 => "nd"
    | 3 => "rd"
    | _ => "th"

def ordinal (n : Nat) : String :=
  decimal n ++ ordinalEnding n

end DataflowEditor.Text
