/-! # Words and double precision numbers

Numbers in documents, addresses and messages are held in words of 64 bits, with a sign or without.
A double is such a word as well. Its value is the exact number `significand * 2 ^ exponent`, and
every operation here is exact arithmetic followed by one rounding to the nearest double, a tie going
to the even one. Infinities and not-a-number never arise: what is too large has no double.
-/

namespace DataflowEditor

/-- How many numbers a word can hold. -/
abbrev wordCount : Nat := 18446744073709551616

/-- How many numbers from zero up a word with a sign can hold. -/
abbrev halfWordCount : Nat := 9223372036854775808

structure Double where
  bits : UInt64
deriving DecidableEq, Inhabited

namespace Double

/-- The weight of the leading bit of a significand, which a normal number does not store. -/
abbrev hiddenBit : Nat := 4503599627370496

def isNegative (d : Double) : Bool :=
  halfWordCount ≤ d.bits.toNat

/-- The eleven bits that hold the exponent. -/
def exponentField (d : Double) : Nat :=
  d.bits.toNat / hiddenBit % 2048

/-- The magnitude without its scale; a normal number has one bit more than it stores. -/
def significand (d : Double) : Nat :=
  if d.exponentField = 0 then d.bits.toNat % hiddenBit
  else d.bits.toNat % hiddenBit + hiddenBit

def exponent (d : Double) : Int :=
  (max d.exponentField 1 : Nat) - 1075

/-- `num / den * base ^ (-scale)`, again as a quotient. -/
def rescale (base : Nat) (num den : Nat) (scale : Int) : Nat × Nat :=
  match scale with
  | .ofNat k => (num, den * base.pow k)
  | .negSucc k => (num * base.pow (k + 1), den)

/-- The magnitude as an exact quotient. -/
def ratio (d : Double) : Nat × Nat :=
  rescale 2 d.significand 1 (-d.exponent)

/-- The integer nearest to `num / den`, the even one on a tie. -/
def roundQuotient (num den : Nat) : Nat :=
  let below := num / den
  let twice := 2 * (num % den)
  if twice < den then below
  else if den < twice then below + 1
  else if below % 2 = 0 then below else below + 1

/-- A double from its sign and the bits of its magnitude. -/
def ofMagnitude (negative : Bool) (magnitude : Nat) : Double :=
  ⟨UInt64.ofNat ((if negative then halfWordCount else 0) + magnitude)⟩

def zero : Double :=
  ⟨0⟩

/-- The double nearest to `num / den`. The scale is chosen so that 53 bits remain, or fewer at the
lower end of the range; adding the rounded significand to the exponent field carries by itself. -/
def nearest? (negative : Bool) (num den : Nat) : Option Double :=
  if num = 0 then some (ofMagnitude negative 0)
  else
    let guess : Int := max ((Nat.log2 num : Int) - Nat.log2 den - 53) (-1074)
    let (n, d) := rescale 2 num den guess
    let scale := if n / d < 2 * hiddenBit then guess else guess + 1
    let (n, d) := rescale 2 num den scale
    let magnitude := (scale + 1074).toNat * hiddenBit + roundQuotient n d
    if magnitude < 2047 * hiddenBit then some (ofMagnitude negative magnitude) else none

def mul? (a b : Double) : Option Double :=
  nearest? (a.isNegative != b.isNegative) (a.ratio.1 * b.ratio.1) (a.ratio.2 * b.ratio.2)

def div? (a b : Double) : Option Double :=
  nearest? (a.isNegative != b.isNegative) (a.ratio.1 * b.ratio.2) (a.ratio.2 * b.ratio.1)

def negate (d : Double) : Double :=
  ofMagnitude (!d.isNegative) (d.bits.toNat % halfWordCount)

/-- The double nearest to a power of ten. -/
def powerOfTen? (k : Nat) : Option Double :=
  nearest? false (Nat.pow 10 k) 1

end Double

end DataflowEditor
