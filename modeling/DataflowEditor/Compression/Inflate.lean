import DataflowEditor.Compression.CodeTree

/-! # Inflating

Deflated data is a run of blocks. A block stores its octets as they are, or gives them as symbols of
two codes, one for octets and lengths and one for distances: a length and a distance repeat what was
written before. The codes are fixed, or are given in front of the block by the lengths of their
words. What lies before the first octet counts as zero.
-/

namespace DataflowEditor.Compression

/-- What has been written. -/
abbrev Written := Array UInt8

namespace Inflate

/-- Repeat octets from a distance back, one at a time, so that a repetition may reach into
itself. -/
def repeatBack (distance : Nat) : Nat → Written → Written
  | 0, out => out
  | count + 1, out =>
    let octet := if distance ≤ out.size then out.getD (out.size - distance) 0 else 0
    repeatBack distance count (out.push octet)

/-- The least length of each length symbol, and how many bits are added to it. -/
def lengthTable : Array (Nat × Nat) :=
  #[(3, 0), (4, 0), (5, 0), (6, 0), (7, 0), (8, 0), (9, 0), (10, 0), (11, 1), (13, 1), (15, 1),
    (17, 1), (19, 2), (23, 2), (27, 2), (31, 2), (35, 3), (43, 3), (51, 3), (59, 3), (67, 4),
    (83, 4), (99, 4), (115, 4), (131, 5), (163, 5), (195, 5), (227, 5), (258, 0)]

/-- The least distance of each distance symbol, and how many bits are added to it. -/
def distanceTable : Array (Nat × Nat) :=
  #[(1, 0), (2, 0), (3, 0), (4, 0), (5, 1), (7, 1), (9, 2), (13, 2), (17, 3), (25, 3), (33, 4),
    (49, 4), (65, 5), (97, 5), (129, 6), (193, 6), (257, 7), (385, 7), (513, 8), (769, 8),
    (1025, 9), (1537, 9), (2049, 10), (3073, 10), (4097, 11), (6145, 11), (8193, 12), (12289, 12),
    (16385, 13), (24577, 13)]

/-- A number given by a symbol of a table and the bits behind it. -/
def tabled? (table : Array (Nat × Nat)) (symbol : Nat) (source : BitSource) :
    Option (Nat × BitSource) := do
  let (least, width) ← table[symbol]?
  let (extra, source) ← source.number? width
  some (least + extra, source)

/-- Write the symbols of a block up to its end. Every symbol takes a bit, so the bits in the source
bound their number. -/
def symbols? (literals distances : CodeTree) :
    Nat → BitSource → Written → Option (BitSource × Written)
  | 0, _, _ => none
  | fuel + 1, source, out =>
    match literals.symbol? source with
    | none => none
    | some (symbol, source) =>
      if symbol < 256 then symbols? literals distances fuel source (out.push (UInt8.ofNat symbol))
      else if symbol = 256 then some (source, out)
      else
        match tabled? lengthTable (symbol - 257) source with
        | none => none
        | some (length, source) =>
          match distances.symbol? source with
          | none => none
          | some (symbol, source) =>
            match tabled? distanceTable symbol source with
            | none => none
            | some (distance, source) =>
              symbols? literals distances fuel source (repeatBack distance length out)

def storedBlock? (source : BitSource) (out : Written) : Option (BitSource × Written) := do
  let source := source.align
  let (head, octets) ← takeExactly? 4 source.octets
  let length := littleEndian (head.take 2)
  if length + littleEndian (head.drop 2) = 65535 then
    let (data, octets) ← takeExactly? length octets
    some (⟨[], octets⟩, data.foldl Array.push out)
  else none

def fixedLengths : List Nat :=
  List.replicate 144 8 ++ List.replicate 112 9 ++ List.replicate 24 7 ++ List.replicate 8 8

/-- In which order the lengths of the code for lengths are given. -/
def lengthOrder : List Nat :=
  [16, 17, 18, 0, 8, 7, 9, 6, 10, 5, 11, 4, 12, 3, 13, 2, 14, 1, 15]

/-- Read numbers of three bits for the given places. -/
def shortLengths? : List Nat → BitSource → Option (List (Nat × Nat) × BitSource)
  | [], source => some ([], source)
  | place :: places, source => do
    let (length, source) ← source.number? 3
    let (rest, source) ← shortLengths? places source
    some ((place, length) :: rest, source)

/-- Read the lengths of `owed` words, last first. A symbol from 16 on repeats the last length or
zero. -/
def wordLengths? (code : CodeTree) :
    (fuel owed : Nat) → List Nat → BitSource → Option (List Nat × BitSource)
  | _, 0, lengths, source => some (lengths.reverse, source)
  | 0, _ + 1, _, _ => none
  | fuel + 1, owed + 1, lengths, source => do
    let (symbol, source) ← code.symbol? source
    if symbol < 16 then wordLengths? code fuel owed (symbol :: lengths) source
    else
      let (length, least, width) ←
        if symbol = 16 then lengths.head?.map fun last => (last, 3, 2)
        else if symbol = 17 then some (0, 3, 3)
        else some (0, 11, 7)
      let (extra, source) ← source.number? width
      let count := least + extra
      if count ≤ owed + 1 then
        wordLengths? code fuel (owed + 1 - count) (List.replicate count length ++ lengths) source
      else none

/-- The two codes given in front of a block. -/
def codes? (source : BitSource) : Option (CodeTree × CodeTree × BitSource) := do
  let (literalCount, source) ← source.number? 5
  let (distanceCount, source) ← source.number? 5
  let (lengthCount, source) ← source.number? 4
  let literalCount := literalCount + 257
  let distanceCount := distanceCount + 1
  if literalCount ≤ 286 ∧ distanceCount ≤ 30 then
    let (given, source) ← shortLengths? (lengthOrder.take (lengthCount + 4)) source
    let code ← CodeTree.ofLengths? false ((List.range 19).map fun place =>
      (given.lookup place).getD 0)
    let total := literalCount + distanceCount
    let (lengths, source) ← wordLengths? code total total [] source
    let literals ← CodeTree.ofLengths? true (lengths.take literalCount)
    let distances ← CodeTree.ofLengths? true (lengths.drop literalCount)
    some (literals, distances, source)
  else none

/-- Write one block; the flag tells whether it is the last. -/
def block? (source : BitSource) (out : Written) : Option (Bool × BitSource × Written) := do
  let (last, source) ← source.bit?
  let (kind, source) ← source.number? 2
  match kind with
  | 0 =>
    let (source, out) ← storedBlock? source out
    some (last, source, out)
  | 1 =>
    let literals ← CodeTree.ofLengths? true fixedLengths
    let distances ← CodeTree.ofLengths? true (List.replicate 32 5)
    let (source, out) ← symbols? literals distances (source.size + 1) source out
    some (last, source, out)
  | 2 =>
    let (literals, distances, source) ← codes? source
    let (source, out) ← symbols? literals distances (source.size + 1) source out
    some (last, source, out)
  | _ => none

/-- Write blocks up to the last one. Every block takes bits. -/
def blocks? : Nat → BitSource → Written → Option (BitSource × Written)
  | 0, _, _ => none
  | fuel + 1, source, out =>
    match block? source out with
    | none => none
    | some (true, source, out) => some (source, out)
    | some (false, source, out) => blocks? fuel source out

end Inflate

/-- Inflate data. What follows it starts at a whole octet. -/
def inflate? (octets : List UInt8) : Option (List UInt8 × List UInt8) := do
  let source := BitSource.ofOctets octets
  let (source, out) ← Inflate.blocks? (source.size + 1) source #[]
  some (out.toList, source.align.octets)

end DataflowEditor.Compression
