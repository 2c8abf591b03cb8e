/-! # UTF-8

Octets are read as characters one at a time. An octet that no character can hold at its place
comes out as `none`, and reading goes on behind it, so that a fault in one part of a document does
not hide the rest.
-/

namespace DataflowEditor.Text

/-- What a character of several octets still lacks: how many octets, between which bounds the next
one has to lie, and the code point so far. -/
structure Partial where
  owed : Nat
  low : Nat
  high : Nat
  code : Nat

/-- A character begun by a first octet of two, three or four, with the bounds that rule out
overlong forms, surrogates and code points above U+10FFFF. -/
def Partial.ofFirst (octet : Nat) : Option Partial :=
  if 0xC2 ≤ octet ∧ octet ≤ 0xDF then some ⟨1, 0x80, 0xBF, octet - 0xC0⟩
  else if octet = 0xE0 then some ⟨2, 0xA0, 0xBF, 0⟩
  else if octet = 0xED then some ⟨2, 0x80, 0x9F, 0xD⟩
  else if 0xE1 ≤ octet ∧ octet ≤ 0xEF then some ⟨2, 0x80, 0xBF, octet - 0xE0⟩
  else if octet = 0xF0 then some ⟨3, 0x90, 0xBF, 0⟩
  else if octet = 0xF4 then some ⟨3, 0x80, 0x8F, 4⟩
  else if 0xF1 ≤ octet ∧ octet ≤ 0xF3 then some ⟨3, 0x80, 0xBF, octet - 0xF0⟩
  else none

/-- The characters read so far, last first, and the one under way. -/
structure Utf8State where
  read : List (Option Char)
  current : Option Partial

def Utf8State.start (state : Utf8State) (octet : Nat) : Utf8State :=
  if octet < 0x80 then ⟨some (Char.ofNat octet) :: state.read, none⟩
  else match Partial.ofFirst octet with
    | some current => ⟨state.read, some current⟩
    | none => ⟨none :: state.read, none⟩

def Utf8State.step (state : Utf8State) (octet : UInt8) : Utf8State :=
  match state.current with
  | none => state.start octet.toNat
  | some current =>
    if current.low ≤ octet.toNat ∧ octet.toNat ≤ current.high then
      let code := current.code * 64 + (octet.toNat - 0x80)
      if current.owed = 1 then ⟨some (Char.ofNat code) :: state.read, none⟩
      else ⟨state.read, some ⟨current.owed - 1, 0x80, 0xBF, code⟩⟩
    else Utf8State.start ⟨none :: state.read, none⟩ octet.toNat

/-- The characters of a run of octets, `none` for what is no character. -/
def characters (octets : List UInt8) : List (Option Char) :=
  let state := octets.foldl Utf8State.step ⟨[], none⟩
  match state.current with
  | none => state.read.reverse
  | some _ => (none :: state.read).reverse

/-- The text of a run of octets, if all of it is text. -/
def ofOctets? (octets : List UInt8) : Option String :=
  ((characters octets).mapM id).map String.ofList

/-- The octets of a text. -/
def octets (text : String) : List UInt8 :=
  text.toUTF8.data.toList

end DataflowEditor.Text
