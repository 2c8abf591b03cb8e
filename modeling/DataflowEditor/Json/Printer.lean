import DataflowEditor.Json.Basic
import DataflowEditor.Number.Shortest
import DataflowEditor.Text.Printable

/-! # Printed documents

The compact text of a document, without blanks and with the members in their order, and the
indented text, two blanks a level. Quotes, backslashes and controls below U+0020 are escaped; every
other character stands for itself.
-/

namespace DataflowEditor.Json

/-- A double keeps all its places while its leading digit stands at most five places behind the
point or fifteen in front of it. -/
def doubleLayout : Double.Layout :=
  ⟨fun exponent => -5 ≤ exponent && exponent ≤ 15⟩

def numberText : Number → String
  | .int i => Text.decimalInt i
  | .double d => d.write doubleLayout

def escapedChar (c : Char) : List Char :=
  if c = '"' then ['\\', '"']
  else if c = '\\' then ['\\', '\\']
  else if c = '\x08' then ['\\', 'b']
  else if c = '\x0c' then ['\\', 'f']
  else if c = '\n' then ['\\', 'n']
  else if c = '\r' then ['\\', 'r']
  else if c = '\t' then ['\\', 't']
  else if c.toNat < 0x20 then
    let digits := Text.hexadecimal c.toNat
    ['\\', 'u'] ++ List.replicate (4 - digits.length) '0' ++ digits
  else [c]

/-- Append a quoted text. -/
def appendText (out : String) (text : String) : String :=
  (text.foldl (fun out c => (escapedChar c).foldl String.push out) (out.push '"')).push '"'

mutual

def append (out : String) : Json → String
  | .null => out ++ "null"
  | .bool true => out ++ "true"
  | .bool false => out ++ "false"
  | .num n => out ++ numberText n
  | .str s => appendText out s
  | .arr items => (appendItems (out.push '[') true items).push ']'
  | .obj members => (appendMembers (out.push '\x7b') true members).push '\x7d'

def appendItems (out : String) (isFirst : Bool) : List Json → String
  | [] => out
  | v :: rest => appendItems (append (if isFirst then out else out.push ',') v) false rest

def appendMembers (out : String) (isFirst : Bool) : List (String × Json) → String
  | [] => out
  | (k, v) :: rest =>
    let out := (appendText (if isFirst then out else out.push ',') k).push ':'
    appendMembers (append out v) false rest

end

/-- The compact text. -/
def print (document : Json) : String :=
  append "" document

def appendLine (out : String) (level : Nat) : String :=
  (List.replicate (2 * level) ' ').foldl String.push (out.push '\n')

mutual

def appendIndented (out : String) (level : Nat) : Json → String
  | .arr [] => out ++ "[]"
  | .arr items =>
    (appendLine (appendIndentedItems (out.push '[') (level + 1) true items) level).push ']'
  | .obj [] => (out.push '\x7b').push '\x7d'
  | .obj members =>
    (appendLine (appendIndentedMembers (out.push '\x7b') (level + 1) true members) level).push
      '\x7d'
  | document => append out document

def appendIndentedItems (out : String) (level : Nat) (isFirst : Bool) : List Json → String
  | [] => out
  | v :: rest =>
    let out := appendLine (if isFirst then out else out.push ',') level
    appendIndentedItems (appendIndented out level v) level false rest

def appendIndentedMembers (out : String) (level : Nat) (isFirst : Bool) :
    List (String × Json) → String
  | [] => out
  | (k, v) :: rest =>
    let out := appendLine (if isFirst then out else out.push ',') level
    let out := appendText out k ++ ": "
    appendIndentedMembers (appendIndented out level v) level false rest

end

/-- The indented text. -/
def printIndented (document : Json) : String :=
  appendIndented "" 0 document

end DataflowEditor.Json
