import DataflowEditor.Number.Double
import DataflowEditor.Text.Integer

/-! # Shortest decimal form of a double

The fewest significant digits that read back as the same double, and of those the nearest to it.
A double stands for the interval of reals that round to it, ends included when its significand is
even. On the decimal grid of one, two, three, … digits only the two neighbours of the value can be
the nearest point inside the interval, so the first grid with a hit gives the answer.
-/

namespace DataflowEditor

/-- The reals from `low / den` to `high / den` around `mid / den`. -/
structure Interval where
  low : Nat
  mid : Nat
  high : Nat
  den : Nat
  closed : Bool

namespace Interval

/-- The reals that round to the magnitude of `d`. Below a power of two the next double is only half
as far away. -/
def ofDouble (d : Double) : Interval :=
  let m := d.significand
  let below := if m = Double.hiddenBit ∧ 1 < d.exponentField then 1 else 2
  let (scale, den) := Double.rescale 2 1 1 (2 - d.exponent)
  ⟨(4 * m - below) * scale, 4 * m * scale, (4 * m + 2) * scale, den, m % 2 = 0⟩

def holds (i : Interval) (num den : Nat) : Bool :=
  if i.closed then i.low * den ≤ num * i.den && num * i.den ≤ i.high * den
  else i.low * den < num * i.den && num * i.den < i.high * den

/-- The nearest point of the grid of step `10 ^ step` inside the interval. -/
def gridPoint? (i : Interval) (step : Int) : Option Nat :=
  let (unit, part) := Double.rescale 10 1 1 (-step)
  let below := i.mid * part / (i.den * unit)
  match i.holds (below * unit) part, i.holds ((below + 1) * unit) part with
  | false, false => none
  | true, false => some below
  | false, true => some (below + 1)
  | true, true =>
    let twice := 2 * i.mid * part
    let middle := (2 * below + 1) * unit * i.den
    if twice < middle then some below
    else if middle < twice then some (below + 1)
    else if below % 2 = 0 then some below else some (below + 1)

end Interval

namespace Double

/-- The least number of tenfold steps, at most `fuel`, that lift `num / den` to one or more. -/
def stepsToOne (den : Nat) : Nat → Nat → Nat
  | 0, _ => 0
  | fuel + 1, num => if den ≤ num then 0 else stepsToOne den fuel (num * 10) + 1

/-- Where the decimal point stands, counted from the first significant digit. -/
def pointOf (num den : Nat) : Int :=
  if den ≤ num then ((Nat.toDigits 10 (num / den)).length : Int)
  else 1 - (stepsToOne den 400 num : Int)

/-- The significant digits of a double that is not zero, and the place of the decimal point
relative to the first of them. -/
def shortest (d : Double) : List Char × Int :=
  let i := Interval.ofDouble d
  let point := pointOf i.mid i.den
  let hit := (List.range 17).findSome? fun n : Nat =>
    let step := point - ((n : Int) + 1)
    (i.gridPoint? step).map fun value => (value, step)
  match hit with
  | none => (['0'], 1)
  | some (value, step) =>
    let digits := Nat.toDigits 10 value
    ((digits.reverse.dropWhile (· = '0')).reverse, step + digits.length)

/-- Which doubles are written with all their places, by the exponent of the leading digit. The
others take an exponent. -/
structure Layout where
  positional : Int → Bool

/-- Positional digits; an integral value keeps one zero behind the point. -/
def positionalText (digits : List Char) (point : Int) : List Char :=
  if point ≤ 0 then ['0', '.'] ++ List.replicate (-point).toNat '0' ++ digits
  else if digits.length ≤ point.toNat then
    digits ++ List.replicate (point.toNat - digits.length) '0' ++ ['.', '0']
  else digits.take point.toNat ++ '.' :: digits.drop point.toNat

/-- One digit in front of the point, and an exponent without padding. -/
def exponentText (digits : List Char) (point : Int) : List Char :=
  let mantissa := match digits with
    | first :: second :: rest => first :: '.' :: second :: rest
    | _ => digits
  mantissa ++ 'e' :: (Text.decimalInt (point - 1)).toList

def write (layout : Layout) (d : Double) : String :=
  let sign := if d.isNegative then ['-'] else []
  if d.significand = 0 then String.ofList (sign ++ ['0', '.', '0'])
  else
    let (digits, point) := d.shortest
    let text := if layout.positional (point - 1) then positionalText digits point
      else exponentText digits point
    String.ofList (sign ++ text)

end Double

end DataflowEditor
