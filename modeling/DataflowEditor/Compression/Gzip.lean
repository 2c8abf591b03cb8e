import DataflowEditor.Compression.Inflate

/-! # Gzip files

A gzip file is a run of members, of which only the first counts. A member has a header with optional
fields, deflated data, and a trailer with the check sum and the length of what was deflated. A file
of which any part does not fit the others is unusable.
-/

namespace DataflowEditor.Compression

/-! ## Check sums

The check sum is the remainder of a run of octets, read as a polynomial with the low bits first, by
the polynomial of degree 32 in common use. The remainder starts and ends inverted.
-/

def crcStep (crc : UInt32) : UInt32 :=
  if crc &&& 1 = 1 then (crc >>> 1) ^^^ 0xEDB88320 else crc >>> 1

def crcOctet (crc : UInt32) (octet : UInt8) : UInt32 :=
  (List.range 8).foldl (fun crc _ => crcStep crc) (crc ^^^ octet.toUInt32)

def crc32 (octets : List UInt8) : UInt32 :=
  octets.foldl crcOctet 0xFFFFFFFF ^^^ 0xFFFFFFFF

/-! ## Members -/

/-- Skip a text of the header up to its closing zero. A text of 65,535 octets or more is refused. -/
def skipHeaderText? (octets : List UInt8) : Option (List UInt8) :=
  let text := octets.takeWhile (· ≠ 0)
  match octets.drop text.length with
  | _ :: rest => if text.length < 65535 then some rest else none
  | [] => none

def skipExtra? (octets : List UInt8) : Option (List UInt8) := do
  let (length, rest) ← takeExactly? 2 octets
  let (_, rest) ← takeExactly? (littleEndian length) rest
  some rest

/-- Skip the check sum of the header, which covers all octets before it. -/
def skipHeaderCheck? (all octets : List UInt8) : Option (List UInt8) := do
  let (check, rest) ← takeExactly? 2 octets
  let covered := all.take (all.length - octets.length)
  if littleEndian check = (crc32 covered).toNat % 65536 then some rest else none

/-- The octets behind the header of a member. The flags tell which fields it has, in this order:
extra data, a name, a comment and a check sum. -/
def skipHeader? (all : List UInt8) : Option (List UInt8) :=
  match all with
  | 0x1f :: 0x8b :: 8 :: flags :: _ :: _ :: _ :: _ :: _ :: _ :: octets => do
    let has (bit : Nat) : Bool := flags.toNat / bit % 2 = 1
    if 32 ≤ flags.toNat then none
    else
      let octets ← if has 4 then skipExtra? octets else some octets
      let octets ← if has 8 then skipHeaderText? octets else some octets
      let octets ← if has 16 then skipHeaderText? octets else some octets
      if has 2 then skipHeaderCheck? all octets else some octets
  | _ => none

/-- The contents of the first member. -/
def gunzip? (octets : List UInt8) : Option (List UInt8) := do
  let deflated ← skipHeader? octets
  let (contents, rest) ← inflate? deflated
  let (trailer, _) ← takeExactly? 8 rest
  if littleEndian (trailer.take 4) = (crc32 contents).toNat ∧
      littleEndian (trailer.drop 4) = contents.length % 4294967296 then some contents
  else none

end DataflowEditor.Compression
