import DataflowEditor.Json.Basic
import DataflowEditor.Text.Utf8

/-! # Documents as they were written

A draft is a document together with its faults. A reader that skips a part of a document is content
with its outline, so not every fault matters to every reader: a text whose characters are damaged,
a number too large for a double and an object nested too deep only matter where the value itself is
wanted. A place where the outline breaks off matters to everybody who comes that far.

Reading a draft never fails. `Draft.json?` gives the document of a draft without faults, and
`Draft.isOutlined` tells whether it may be skipped.
-/

namespace DataflowEditor

/-- The characters of a document, `none` for octets that are none. -/
abbrev Source := List (Option Char)

inductive Draft where
  | null
  | bool (value : Bool)
  /-- Without a value the number is too large. -/
  | number (value : Option Number)
  /-- Without a value the text holds half a surrogate pair or octets that are no character. -/
  | text (value : Option String)
  /-- An array that is not `closed` breaks off behind its items. -/
  | array (deep : Bool) (items : List Draft) (closed : Bool)
  /-- An object that is not `closed` breaks off behind its members. -/
  | object (deep : Bool) (members : List (Option String × Draft)) (closed : Bool)
  | broken
deriving Inhabited

namespace Draft

/-- Whether the outline goes on behind this part. -/
def goesOn : Draft → Bool
  | .array _ _ closed => closed
  | .object _ _ closed => closed
  | .broken => false
  | _ => true

/-! ## Reading -/

def isSpace (c : Option Char) : Bool :=
  c = some ' ' || c = some '\t' || c = some '\n' || c = some '\r'

def skipSpace (source : Source) : Source :=
  source.dropWhile isSpace

/-- The source behind a given word. -/
def behind? : List Char → Source → Option Source
  | [], source => some source
  | c :: word, some d :: source => if c = d then behind? word source else none
  | _ :: _, _ => none

def hexValue? (c : Char) : Option Nat :=
  if c.isDigit then some (c.toNat - 48)
  else if 'a' ≤ c ∧ c ≤ 'f' then some (c.toNat - 87)
  else if 'A' ≤ c ∧ c ≤ 'F' then some (c.toNat - 55)
  else none

/-- Where the reader stands inside an escape. -/
inductive Escape where
  | outside
  | begun
  | hex (owed : Nat) (code : Nat)
deriving DecidableEq

/-- The characters of a text so far, last first; whether all of them are sound; the first half of a
surrogate pair that waits for the second; and the escape under way. -/
structure TextState where
  chars : List Char
  sound : Bool
  high : Option Nat
  escape : Escape

namespace TextState

def start : TextState :=
  ⟨[], true, none, .outside⟩

/-- A character that stands for itself leaves no pair to complete. -/
def add (s : TextState) (c : Char) : TextState :=
  { s with chars := c :: s.chars, sound := s.sound && s.high.isNone, high := none,
           escape := .outside }

/-- A code unit given by its hexadecimal digits. -/
def addUnit (s : TextState) (unit : Nat) : TextState :=
  match s.high with
  | some high =>
    if 0xDC00 ≤ unit ∧ unit ≤ 0xDFFF then
      { s with chars := Char.ofNat (0x10000 + (high - 0xD800) * 0x400 + (unit - 0xDC00)) :: s.chars,
               high := none, escape := .outside }
    else { s with sound := false, high := none, escape := .outside }
  | none =>
    if 0xD800 ≤ unit ∧ unit ≤ 0xDBFF then { s with high := some unit, escape := .outside }
    else if 0xDC00 ≤ unit ∧ unit ≤ 0xDFFF then { s with sound := false, escape := .outside }
    else s.add (Char.ofNat unit)

/-- The character that a letter behind a backslash stands for. -/
def escaped? (c : Char) : Option Char :=
  match c with
  | '"' => some '"'
  | '\\' => some '\\'
  | '/' => some '/'
  | 'b' => some '\x08'
  | 'f' => some '\x0c'
  | 'n' => some '\n'
  | 'r' => some '\r'
  | 't' => some '\t'
  | _ => none

/-- Take one character; none where the text breaks. -/
def step (s : TextState) (c : Option Char) : Option TextState :=
  match s.escape, c with
  | .outside, none => some { s with sound := false, high := none }
  | .outside, some '\\' => some { s with escape := .begun }
  | .outside, some c => if c.toNat < 0x20 then none else some (s.add c)
  | .begun, some 'u' => some { s with escape := .hex 4 0 }
  | .begun, some c => (escaped? c).map s.add
  | .hex owed code, some c =>
    (hexValue? c).map fun digit =>
      if owed = 1 then s.addUnit (16 * code + digit)
      else { s with escape := .hex (owed - 1) (16 * code + digit) }
  | _, none => none

def finish (s : TextState) : Option String :=
  if s.sound && s.high.isNone then some (String.ofList s.chars.reverse) else none

end TextState

/-- The text up to its closing quote, and the source behind it. -/
def readText (s : TextState) : Source → Option (Option String × Source)
  | [] => none
  | c :: rest =>
    if s.escape = .outside && c = some '"' then some (s.finish, rest)
    else match s.step c with
      | none => none
      | some s => readText s rest

def isDigit (c : Option Char) : Bool :=
  match c with
  | some c => c.isDigit
  | none => false

/-- The digits in front, and the source behind them. -/
def digits (source : Source) : List Char × Source :=
  ((source.takeWhile isDigit).filterMap id, source.dropWhile isDigit)

/-- The digits behind a point, none where the point has no digit. -/
def fractionPart : Source → Option (List Char × Source)
  | some '.' :: rest =>
    let (found, rest) := digits rest
    if found.isEmpty then none else some (found, rest)
  | source => some ([], source)

def exponentDigits (negative : Bool) (source : Source) :
    Option (Option (Bool × List Char) × Source) :=
  let (found, rest) := digits source
  if found.isEmpty then none else some (some (negative, found), rest)

def exponentSign : Source → Option (Option (Bool × List Char) × Source)
  | some '+' :: rest => exponentDigits false rest
  | some '-' :: rest => exponentDigits true rest
  | source => exponentDigits false source

def exponentPart : Source → Option (Option (Bool × List Char) × Source)
  | some 'e' :: rest => exponentSign rest
  | some 'E' :: rest => exponentSign rest
  | source => some (none, source)

/-- A number without its sign. A zero in front stands alone. -/
def readMagnitude (negative : Bool) (source : Source) : Option (Literal × Source) :=
  let (whole, rest) := digits source
  if whole.isEmpty || (whole.head? = some '0' && 1 < whole.length) then none
  else do
    let (fraction, rest) ← fractionPart rest
    let (exponent, rest) ← exponentPart rest
    some (⟨negative, whole, fraction, exponent⟩, rest)

def readLiteral : Source → Option (Literal × Source)
  | some '-' :: rest => readMagnitude true rest
  | source => readMagnitude false source

/-- A document of one word, with the source behind it. -/
def ofWord (draft : Draft) (word : List Char) (source : Source) : Draft × Source :=
  match behind? word source with
  | some rest => (draft, rest)
  | none => (.broken, [])

variable (limit : Nat)

mutual

/-- The draft in front of the source and the source behind it; `depth` arrays and objects enclose
it, of which `limit` are not too deep. -/
def readValue (fuel depth : Nat) (source : Source) : Draft × Source :=
  match fuel with
  | 0 => (.broken, [])
  | fuel + 1 =>
    match skipSpace source with
    | some '[' :: rest =>
      match skipSpace rest with
      | some ']' :: rest => (.array (limit ≤ depth) [] true, rest)
      | rest => readItems fuel depth [] rest
    | some '\x7b' :: rest =>
      match skipSpace rest with
      | some '\x7d' :: rest => (.object (limit ≤ depth) [] true, rest)
      | rest => readMembers fuel depth [] rest
    | some '"' :: rest =>
      match readText .start rest with
      | some (value, rest) => (.text value, rest)
      | none => (.broken, [])
    | some 'n' :: rest => ofWord .null ['u', 'l', 'l'] rest
    | some 't' :: rest => ofWord (.bool true) ['r', 'u', 'e'] rest
    | some 'f' :: rest => ofWord (.bool false) ['a', 'l', 's', 'e'] rest
    | source =>
      match readLiteral source with
      | some (literal, rest) => (.number (Number.read? literal), rest)
      | none => (.broken, [])

/-- The items from here on, behind those in `before`, last first. -/
def readItems (fuel depth : Nat) (before : List Draft) (source : Source) : Draft × Source :=
  match fuel with
  | 0 => (.array (limit ≤ depth) before.reverse false, [])
  | fuel + 1 =>
    match readValue fuel (depth + 1) source with
    | (.broken, _) => (.array (limit ≤ depth) before.reverse false, [])
    | (item, rest) =>
      if item.goesOn then
        match skipSpace rest with
        | some ',' :: rest => readItems fuel depth (item :: before) rest
        | some ']' :: rest => (.array (limit ≤ depth) (item :: before).reverse true, rest)
        | _ => (.array (limit ≤ depth) (item :: before).reverse false, [])
      else (.array (limit ≤ depth) (item :: before).reverse false, [])

/-- The members from here on, behind those in `before`, last first. -/
def readMembers (fuel depth : Nat) (before : List (Option String × Draft)) (source : Source) :
    Draft × Source :=
  match fuel with
  | 0 => (.object (limit ≤ depth) before.reverse false, [])
  | fuel + 1 =>
    match skipSpace source with
    | some '"' :: rest =>
      match readText .start rest with
      | none => (.object (limit ≤ depth) before.reverse false, [])
      | some (key, rest) =>
        match skipSpace rest with
        | some ':' :: rest =>
          let (value, rest) := readValue fuel (depth + 1) rest
          if value.goesOn then
            match skipSpace rest with
            | some ',' :: rest => readMembers fuel depth ((key, value) :: before) rest
            | some '\x7d' :: rest =>
              (.object (limit ≤ depth) ((key, value) :: before).reverse true, rest)
            | _ => (.object (limit ≤ depth) ((key, value) :: before).reverse false, [])
          else (.object (limit ≤ depth) ((key, value) :: before).reverse false, [])
        | _ => (.object (limit ≤ depth) ((key, .broken) :: before).reverse false, [])
    | _ => (.object (limit ≤ depth) before.reverse false, [])

end

/-- The draft of a whole source, and whether nothing but space follows it. Every step of the reader
takes at least one character for two units of fuel. -/
def read (source : Source) : Draft × Bool :=
  let (draft, rest) := readValue limit (2 * source.length + 2) 0 source
  (draft, draft.goesOn && (skipSpace rest).isEmpty)

/-! ## Documents and drafts -/

mutual

/-- The document of a draft without faults. The last of several members with one key counts. -/
def json? : Draft → Option Json
  | .null => some .null
  | .bool value => some (.bool value)
  | .number value => value.map .num
  | .text value => value.map .str
  | .array deep items closed =>
    if deep || !closed then none else (itemsJson? [] items).map .arr
  | .object deep members closed =>
    if deep || !closed then none else (membersJson? [] members).map .obj
  | .broken => none

def itemsJson? (before : List Json) : List Draft → Option (List Json)
  | [] => some before.reverse
  | item :: rest =>
    match item.json? with
    | some v => itemsJson? (v :: before) rest
    | none => none

def membersJson? (before : Fields) : List (Option String × Draft) → Option Fields
  | [] => some before
  | (key, value) :: rest =>
    match key, value.json? with
    | some key, some v => membersJson? (before.put key v) rest
    | _, _ => none

end

mutual

/-- Whether the outline is whole, so that the draft may be skipped. -/
def isOutlined : Draft → Bool
  | .array _ items closed => closed && itemsOutlined items
  | .object _ members closed => closed && membersOutlined members
  | .broken => false
  | _ => true

def itemsOutlined : List Draft → Bool
  | [] => true
  | item :: rest => item.isOutlined && itemsOutlined rest

def membersOutlined : List (Option String × Draft) → Bool
  | [] => true
  | (_, value) :: rest => value.isOutlined && membersOutlined rest

end

mutual

/-- A document as a draft without faults. -/
def ofJson : Json → Draft
  | .null => .null
  | .bool value => .bool value
  | .num value => .number (some value)
  | .str value => .text (some value)
  | .arr items => .array false (ofItems items) true
  | .obj members => .object false (ofMembers members) true

def ofItems : List Json → List Draft
  | [] => []
  | v :: rest => ofJson v :: ofItems rest

def ofMembers : List (String × Json) → List (Option String × Draft)
  | [] => []
  | (k, v) :: rest => (some k, ofJson v) :: ofMembers rest

end

end Draft

namespace Json

/-- How many arrays and objects may enclose each other. -/
def depthLimit : Nat := 127

/-- The document of a source, nested as deep as `limit` allows. -/
def parseWithin? (limit : Nat) (source : Source) : Option Json :=
  let (draft, complete) := Draft.read limit source
  if complete then draft.json? else none

def parse? (source : Source) : Option Json :=
  parseWithin? depthLimit source

def ofText? (text : String) : Option Json :=
  parse? (text.toList.map some)

def ofOctets? (octets : List UInt8) : Option Json :=
  parse? (Text.characters octets)

end Json

end DataflowEditor
