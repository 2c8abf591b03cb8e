import DataflowEditor.Number.Double
import DataflowEditor.Text.Integer

/-! # Numbers of a document

A number is an integer or a double, and stays what it was written as: `1` and `1.0` differ. A
literal without fraction and exponent is an integer if it fits 64 bits, with or without a sign;
every other literal is a double. The decimal digits of a double are gathered in a word of 64 bits,
what does not fit it only counts towards the scale, and the scale is then applied by powers of ten
that are doubles themselves, at most `10 ^ 308` at a time.
-/

namespace DataflowEditor

inductive Number where
  | int (value : Int)
  | double (value : Double)
deriving DecidableEq, Inhabited

/-- A number as it is spelled. Digits are characters `0` to `9`. -/
structure Literal where
  negative : Bool
  whole : List Char
  fraction : List Char
  /-- The sign and the digits behind the `e`, where there is one. -/
  exponent : Option (Bool × List Char)

/-- `significand * 10 ^ exponent`; `full` once a digit had to be dropped. -/
structure Gathered where
  significand : Nat
  exponent : Int
  full : Bool

namespace Gathered

def addWhole (g : Gathered) (c : Char) : Gathered :=
  let next := 10 * g.significand + Text.digitValue c
  if g.full || wordCount ≤ next then { g with exponent := g.exponent + 1, full := true }
  else { g with significand := next }

def addFraction (g : Gathered) (c : Char) : Gathered :=
  let next := 10 * g.significand + Text.digitValue c
  if g.full || wordCount ≤ next then { g with full := true }
  else { g with significand := next, exponent := g.exponent - 1 }

/-- All digits of a literal, those of the fraction lowering the scale. -/
def ofDigits (whole fraction : List Char) : Gathered :=
  let g := whole.foldl addWhole ⟨0, 0, false⟩
  fraction.foldl addFraction { g with full := false }

end Gathered

namespace Double

/-- Divide by `10 ^ 308` the given number of times. -/
def lower (d : Double) : Nat → Option Double
  | 0 => some d
  | n + 1 => do ((← d.div? (← powerOfTen? 308)).lower n)

/-- `significand * 10 ^ exponent`, rounded once for the significand and once for every power of
ten. Three full steps down take any significand to zero, so further ones are left out. -/
def scaleByTen? (significand : Nat) (exponent : Int) : Option Double := do
  let d ← nearest? false significand 1
  match exponent with
  | .ofNat k =>
    if k ≤ 308 then d.mul? (← powerOfTen? k) else if d = zero then some d else none
  | .negSucc k =>
    let steps := k / 308
    if 3 ≤ steps then some zero
    else (← d.lower steps).div? (← powerOfTen? (k + 1 - 308 * steps))

end Double

namespace Number

def digitsValue (digits : List Char) : Nat :=
  digits.foldl (fun n c => 10 * n + Text.digitValue c) 0

/-- The double of a literal; none when it is too large for one. An exponent beyond 31 bits decides
by itself. -/
def readDouble? (l : Literal) : Option Double :=
  let g := Gathered.ofDigits l.whole l.fraction
  let magnitude : Option Double :=
    match l.exponent with
    | none => Double.scaleByTen? g.significand g.exponent
    | some (negative, digits) =>
      let e := digitsValue digits
      if e < 2147483648 then
        Double.scaleByTen? g.significand (g.exponent + if negative then -(e : Int) else e)
      else if g.significand ≠ 0 ∧ !negative then none
      else some Double.zero
  magnitude.map fun d => if l.negative then d.negate else d

/-- The number of a literal. A minus zero is a double, since an integer has no such value. -/
def read? (l : Literal) : Option Number :=
  let n := digitsValue l.whole
  if l.fraction.isEmpty && l.exponent.isNone then
    if !l.negative && n < wordCount then some (.int n)
    else if l.negative && 0 < n && n ≤ halfWordCount then some (.int (-(n : Int)))
    else (readDouble? l).map .double
  else (readDouble? l).map .double

end Number

end DataflowEditor
