import DataflowEditor.Json.Draft
import DataflowEditor.Number.Shortest
import DataflowEditor.Text.Printable

/-! # Decoding documents

A decoder takes a draft apart into a value of the program. It goes through the draft in the order in
which it was written, so the first problem decides: either the draft cannot be read on from there,
or what stands there is not what the decoder wants, in which case the fault says where it stands.

A record is given as an object with its fields as members, or as an array with its fields in their
order. Members with unknown names are skipped. Fields that are left out are looked for at the end,
in the order of the record.
-/

namespace DataflowEditor

/-- What a decoder came upon, for a message. -/
inductive Found where
  | null
  | bool (value : Bool)
  | int (value : Int)
  | double (value : Double)
  | text (value : String)
  | sequence
  | map
deriving DecidableEq

/-- A double in a message keeps all its places. -/
def Found.doubleLayout : Double.Layout :=
  ⟨fun _ => true⟩

def Found.message : Found → String
  | .null => "null"
  | .bool true => "boolean `true`"
  | .bool false => "boolean `false`"
  | .int value => "integer `" ++ Text.decimalInt value ++ "`"
  | .double value => "floating point `" ++ value.write doubleLayout ++ "`"
  | .text value => "string " ++ Text.quoted value
  | .sequence => "sequence"
  | .map => "map"

/-- How a draft differs from what is wanted. -/
inductive Mismatch where
  | type (found : Found) (expected : String)
  | value (found : Found) (expected : String)
  | length (found : Nat) (expected : String)
  /-- An array goes on behind the last item that is wanted. -/
  | excess (found : Nat)
  | missing (field : String)
  | duplicate (field : String)
  | variant (name : String) (known : List String)
  | noVariant (name : String)
  /-- A text that means nothing to the type it is decoded to. -/
  | refused (reason : String)
deriving DecidableEq

/-- The names to choose from, as a message lists them. -/
def oneOf (names : List String) : String :=
  match names.map fun name => "`" ++ name ++ "`" with
  | [name] => name
  | [first, second] => first ++ " or " ++ second
  | all => "one of " ++ ", ".intercalate all

def Mismatch.message : Mismatch → String
  | .type found expected => "invalid type: " ++ found.message ++ ", expected " ++ expected
  | .value found expected => "invalid value: " ++ found.message ++ ", expected " ++ expected
  | .length found expected => "invalid length " ++ Text.decimal found ++ ", expected " ++ expected
  | .excess found =>
    "invalid length " ++ Text.decimal found ++ ", expected fewer elements in array"
  | .missing field => "missing field `" ++ field ++ "`"
  | .duplicate field => "duplicate field `" ++ field ++ "`"
  | .variant name known => "unknown variant `" ++ name ++ "`, expected " ++ oneOf known
  | .noVariant name => "data did not match any variant of untagged enum " ++ name
  | .refused reason => reason

/-- A step from a draft to one of its parts. -/
inductive PathStep where
  | member (key : String)
  | item (index : Nat)
deriving DecidableEq

inductive DecodeFault where
  | unreadable
  | mismatch (path : List PathStep) (cause : Mismatch)
deriving DecidableEq

namespace DecodeFault

/-- The fault, seen from the draft that has it in a part. -/
def inside (step : PathStep) : DecodeFault → DecodeFault
  | .unreadable => .unreadable
  | .mismatch path cause => .mismatch (step :: path) cause

def ofType (found : Found) (expected : String) : DecodeFault :=
  .mismatch [] (.type found expected)

/-- The place of a fault: keys are joined by points, indices stand in brackets. -/
def pathText : List PathStep → String
  | [] => ""
  | .item index :: rest => "[" ++ Text.decimal index ++ "]" ++ pathText rest
  | .member key :: rest => key ++ (match rest with
    | .member _ :: _ => "."
    | _ => "") ++ pathText rest

/-- The message without the place. The wording for what cannot be read is left open. -/
def message : DecodeFault → String
  | .unreadable => "<syntax>"
  | .mismatch _ cause => cause.message

/-- The message behind the place, if the fault is inside a part. -/
def messageAt : DecodeFault → String
  | .unreadable => "<syntax>"
  | .mismatch [] cause => cause.message
  | .mismatch path cause => pathText path ++ ": " ++ cause.message

end DecodeFault

abbrev Decoder (α : Type) := Draft → Except DecodeFault α

namespace Draft

/-- What stands in a draft, as far as a message shows it. An array or object is known by its first
character. -/
def found : Decoder Found
  | .null => .ok .null
  | .bool value => .ok (.bool value)
  | .number (some (.int value)) => .ok (.int value)
  | .number (some (.double value)) => .ok (.double value)
  | .number none => .error .unreadable
  | .text (some value) => .ok (.text value)
  | .text none => .error .unreadable
  | .array _ _ _ => .ok .sequence
  | .object _ _ _ => .ok .map
  | .broken => .error .unreadable

/-- Refuse a draft for its type. -/
def refuse {α : Type} (expected : String) : Decoder α := fun draft =>
  draft.found.bind fun found => .error (.ofType found expected)

/-- A document of any kind, but free of faults. -/
def json : Decoder Json := fun draft =>
  match draft.json? with
  | some document => .ok document
  | none => .error .unreadable

/-- Skip a draft. -/
def skip : Decoder Unit := fun draft =>
  if draft.isOutlined then .ok () else .error .unreadable

def textAs (expected : String) : Decoder String
  | .text (some value) => .ok value
  | draft => draft.refuse expected

def string : Decoder String :=
  textAs "a string"

def boolean : Decoder Bool
  | .bool value => .ok value
  | draft => draft.refuse "a boolean"

/-- An integer from `low` to `high`. -/
def integer (low high : Int) (expected : String) : Decoder Int
  | .number (some (.int value)) =>
    if low ≤ value ∧ value ≤ high then .ok value
    else .error (.mismatch [] (.value (.int value) expected))
  | draft => draft.refuse expected

/-- A natural number that fits 64 bits. -/
def natural (expected : String) : Decoder Nat := fun draft =>
  (integer 0 (wordCount - 1) expected draft).map Int.toNat

def index : Decoder Nat :=
  natural "usize"

variable {α : Type}

/-- Null stands for none. -/
def optional (decode : Decoder α) : Decoder (Option α)
  | .null => .ok none
  | draft => (decode draft).map some

def listItems (decode : Decoder α) (closed : Bool) (place : Nat) (before : List α) :
    List Draft → Except DecodeFault (List α)
  | [] => if closed then .ok before.reverse else .error .unreadable
  | item :: rest =>
    match decode item with
    | .ok value => listItems decode closed (place + 1) (value :: before) rest
    | .error fault => .error (fault.inside (.item place))

def list (decode : Decoder α) : Decoder (List α)
  | .array deep items closed =>
    if deep then .error .unreadable else listItems decode closed 0 [] items
  | draft => draft.refuse "a sequence"

/-- Set the value of a key, in its place where the key exists. -/
def putEntry (entries : List (String × α)) (key : String) (value : α) : List (String × α) :=
  match entries with
  | [] => [(key, value)]
  | (k, v) :: rest => if k = key then (k, value) :: rest else (k, v) :: putEntry rest key value

def mapMembers (decode : Decoder α) (closed : Bool) (before : List (String × α)) :
    List (Option String × Draft) → Except DecodeFault (List (String × α))
  | [] => if closed then .ok before else .error .unreadable
  | (none, _) :: _ => .error .unreadable
  | (some key, value) :: rest =>
    match decode value with
    | .ok value => mapMembers decode closed (putEntry before key value) rest
    | .error fault => .error (fault.inside (.member key))

/-- An object whose members all have values of one kind. -/
def mapping (decode : Decoder α) : Decoder (List (String × α))
  | .object deep members closed =>
    if deep then .error .unreadable else mapMembers decode closed [] members
  | draft => draft.refuse "a map"

end Draft

/-- A field of a record: how to store what stands there. A field that is not required keeps the
value of the blank record when it is left out. -/
structure RecordField (α : Type) where
  name : String
  required : Bool
  store : Draft → α → Except DecodeFault α

namespace RecordField

variable {α β : Type}

def needed (name : String) (decode : Decoder β) (set : α → β → α) : RecordField α :=
  ⟨name, true, fun draft record => (decode draft).map (set record)⟩

def defaulted (name : String) (decode : Decoder β) (set : α → β → α) : RecordField α :=
  ⟨name, false, fun draft record => (decode draft).map (set record)⟩

end RecordField

/-- A record type: its name in messages, the record before any field is stored, and its fields in
their order. -/
structure RecordShape (α : Type) where
  name : String
  blank : α
  fields : List (RecordField α)

namespace RecordShape

variable {α : Type} (shape : RecordShape α)

/-- The record as a message describes it. -/
def description : String :=
  shape.name ++ " with " ++ Text.decimal shape.fields.length ++
    if shape.fields.length = 1 then " element" else " elements"

/-- The first field that is required and was not among the members. -/
def missing? (seen : List String) : Option String :=
  (shape.fields.find? fun field => field.required && !seen.contains field.name).map (·.name)

def decodeMembers (closed : Bool) (record : α) (seen : List String) :
    List (Option String × Draft) → Except DecodeFault α
  | [] =>
    if !closed then .error .unreadable
    else match shape.missing? seen with
      | some name => .error (.mismatch [] (.missing name))
      | none => .ok record
  | (none, _) :: _ => .error .unreadable
  | (some key, value) :: rest =>
    match shape.fields.find? fun field => field.name = key with
    | none =>
      match value.skip with
      | .ok _ => decodeMembers closed record seen rest
      | .error fault => .error fault
    | some field =>
      if seen.contains key then .error (.mismatch [] (.duplicate key))
      else match field.store value record with
        | .ok record => decodeMembers closed record (key :: seen) rest
        | .error fault => .error (fault.inside (.member key))

/-- Take the items for the fields that are left. `total` counts all items of the array. -/
def decodeItems (closed : Bool) (total : Nat) (place : Nat) (record : α) :
    List (RecordField α) → List Draft → Except DecodeFault α
  | [], [] => if closed then .ok record else .error .unreadable
  | [], _ :: _ => .error (.mismatch [] (.excess total))
  | field :: fields, [] =>
    if !closed then .error .unreadable
    else if field.required then .error (.mismatch [] (.length place shape.description))
    else decodeItems closed total (place + 1) record fields []
  | field :: fields, item :: items =>
    match field.store item record with
    | .ok record => decodeItems closed total (place + 1) record fields items
    | .error fault => .error (fault.inside (.item place))

def decode : Decoder α
  | .object deep members closed =>
    if deep then .error .unreadable else shape.decodeMembers closed shape.blank [] members
  | .array deep items closed =>
    if deep then .error .unreadable
    else shape.decodeItems closed items.length 0 shape.blank shape.fields items
  | draft => draft.refuse shape.name

end RecordShape

/-- Decode a document. -/
def Json.decodeAs {α : Type} (decode : Decoder α) (document : Json) : Except DecodeFault α :=
  decode (.ofJson document)

/-- Decode a source that holds one document and nothing else. An array that goes on too long cannot
be read to its end. -/
def Source.decodeAs {α : Type} (decode : Decoder α) (source : Source) : Except DecodeFault α :=
  let (draft, complete) := Draft.read Json.depthLimit source
  match decode draft with
  | .ok value => if complete then .ok value else .error .unreadable
  | .error (.mismatch _ (.excess _)) => .error .unreadable
  | .error fault => .error fault

end DataflowEditor
