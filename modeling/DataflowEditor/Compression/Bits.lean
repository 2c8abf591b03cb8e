/-! # Bits of a run of octets

Compressed data is a run of bits, the low bits of every octet first. A source of bits holds the
octets that are left and the bits of the octet under way. Numbers are stored with their low bits in
front; some parts of the data start at an octet again, the bits before them being skipped.
-/

namespace DataflowEditor.Compression

structure BitSource where
  /-- The bits of the current octet that were not taken yet. -/
  spare : List Bool
  octets : List UInt8

namespace BitSource

def ofOctets (octets : List UInt8) : BitSource :=
  ⟨[], octets⟩

/-- The bits of an octet, low bits first. -/
def bitsOf (octet : UInt8) : List Bool :=
  (List.range 8).map fun place => octet.toNat.testBit place

/-- How many bits are left. -/
def size (source : BitSource) : Nat :=
  source.spare.length + 8 * source.octets.length

def bit? (source : BitSource) : Option (Bool × BitSource) :=
  match source.spare, source.octets with
  | bit :: spare, octets => some (bit, ⟨spare, octets⟩)
  | [], octet :: octets =>
    match bitsOf octet with
    | bit :: spare => some (bit, ⟨spare, octets⟩)
    | [] => none
  | [], [] => none

/-- A number of the given count of bits. -/
def number? : Nat → BitSource → Option (Nat × BitSource)
  | 0, source => some (0, source)
  | count + 1, source => do
    let (bit, source) ← source.bit?
    let (rest, source) ← number? count source
    some (bit.toNat + 2 * rest, source)

/-- The source from the next whole octet on. -/
def align (source : BitSource) : BitSource :=
  ⟨[], source.octets⟩

end BitSource

/-- The number stored in octets, the low ones first. -/
def littleEndian : List UInt8 → Nat
  | [] => 0
  | octet :: rest => octet.toNat + 256 * littleEndian rest

/-- The first octets, if there are as many. -/
def takeExactly? (count : Nat) (octets : List UInt8) : Option (List UInt8 × List UInt8) :=
  if count ≤ octets.length then some (octets.take count, octets.drop count) else none

end DataflowEditor.Compression
