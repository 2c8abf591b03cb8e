import DataflowEditor.Compression.Bits

/-! # Canonical codes

A code gives every symbol a word of bits such that no word begins another. It is kept as a tree: a
word is the way from the root to its symbol. A canonical code is known from the lengths of its words
alone: shorter words come first, words of one length in the order of their symbols, and every word
is the leftmost that is free.
-/

namespace DataflowEditor.Compression

inductive CodeTree where
  | vacant
  | leaf (symbol : Nat)
  | branch (zero one : CodeTree)
deriving Inhabited

namespace CodeTree

/-- Fill a subtree whose root lies at a depth with the symbols in hand, given with the lengths of
their words in ascending order. The symbols for which there is no room are left over. -/
def fill : (room depth : Nat) → List (Nat × Nat) → CodeTree × List (Nat × Nat)
  | _, _, [] => (.vacant, [])
  | 0, depth, (length, symbol) :: rest =>
    if length = depth then (.leaf symbol, rest) else (.vacant, (length, symbol) :: rest)
  | room + 1, depth, (length, symbol) :: rest =>
    if length = depth then (.leaf symbol, rest)
    else
      let (zero, rest) := fill room (depth + 1) ((length, symbol) :: rest)
      let (one, rest) := fill room (depth + 1) rest
      (.branch zero one, rest)

/-- Whether every way down ends at a symbol. -/
def isFull : CodeTree → Bool
  | .vacant => false
  | .leaf _ => true
  | .branch zero one => zero.isFull && one.isFull

/-- The symbols with a word, by the length of their words and then by themselves. -/
def usedSymbols (lengths : List Nat) : List (Nat × Nat) :=
  (lengths.zipIdx.filter fun entry => entry.1 ≠ 0).mergeSort fun a b => a.1 ≤ b.1

/-- The code with words of the given lengths, at most 15 bits. A code with too many words does not
exist. One with words to spare is refused, unless `lonely` codes are allowed and there is at most
one word. -/
def ofLengths? (lonely : Bool) (lengths : List Nat) : Option CodeTree :=
  let used := usedSymbols lengths
  match fill 15 0 used with
  | (tree, []) => if tree.isFull || (lonely && used.length ≤ 1) then some tree else none
  | (_, _ :: _) => none

/-- Follow the bits of a source down to a symbol. -/
def symbol? : CodeTree → BitSource → Option (Nat × BitSource)
  | .vacant, _ => none
  | .leaf symbol, source => some (symbol, source)
  | .branch zero one, source =>
    match source.bit? with
    | some (false, source) => zero.symbol? source
    | some (true, source) => one.symbol? source
    | none => none

end CodeTree

end DataflowEditor.Compression
