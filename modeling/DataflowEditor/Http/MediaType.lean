/-! # Media types

A media type names a type and a subtype with a slash between them. A subtype may end in a suffix
behind a plus sign. Parameters may follow behind a semicolon or a blank; here they only have to be
well formed. Names are compared without regard to case.
-/

namespace DataflowEditor

/-- A media type without its parameters. -/
structure MediaType where
  type : List Char
  subtype : List Char
  suffix : Option (List Char)
deriving DecidableEq

namespace MediaType

/-- The characters of names and plain values: letters, digits and some marks of ASCII. -/
def isToken (c : Char) : Bool :=
  c.isAlphanum || "!#$%&'*+-.^_`|~".toList.contains c

/-- The characters of a header that is text. -/
def isHeaderChar (c : Char) : Bool :=
  c = '\t' || (0x20 ≤ c.toNat && c.toNat < 0x7F)

/-- The text behind a quoted value, which holds at least one character. -/
def behindQuoted? : List Char → Option (List Char)
  | [] => none
  | c :: rest =>
    if !isHeaderChar c || c = '\t' then none
    else match rest.dropWhile fun c => c ≠ '"' && c ≠ '\t' with
      | '"' :: rest => some rest
      | _ => none

/-- Whether a text is a list of parameters. Every parameter takes fuel. -/
def areParameters : Nat → List Char → Bool
  | _, [] => true
  | 0, _ => false
  | fuel + 1, ' ' :: rest => areParameters fuel rest
  | fuel + 1, text =>
    match text.takeWhile isToken, text.dropWhile isToken with
    | _ :: _, '=' :: '"' :: rest =>
      match (behindQuoted? rest).map fun rest => rest.dropWhile (· = ' ') with
      | some [] => true
      | some (';' :: rest) => areParameters fuel rest
      | _ => false
    | _ :: _, '=' :: value =>
      match value.takeWhile isToken, value.dropWhile isToken with
      | _, [] => true
      | _ :: _, ';' :: rest => areParameters fuel rest
      | _, _ => false
    | _, _ => false

/-- Split a subtype at its last plus sign, unless it begins with that. -/
def ofNames (type subtype : List Char) : MediaType :=
  let suffix := (subtype.reverse.takeWhile (· ≠ '+')).reverse
  let stem := subtype.take (subtype.length - suffix.length - 1)
  if suffix.length < subtype.length && !stem.isEmpty then ⟨type, stem, some suffix⟩
  else ⟨type, subtype, none⟩

def ofText? (text : String) : Option MediaType :=
  let chars := text.toList
  if !chars.all isHeaderChar then none
  else match chars.takeWhile isToken, chars.dropWhile isToken with
    | c :: type, '/' :: rest =>
      match rest.takeWhile isToken, rest.dropWhile isToken with
      | subtype, [] => some (ofNames (c :: type) subtype)
      | d :: subtype, mark :: parameters =>
        if (mark = ';' || mark = ' ') && areParameters parameters.length parameters then
          some (ofNames (c :: type) (d :: subtype))
        else none
      | [], _ => none
    | _, _ => none

def lowercase (name : List Char) : String :=
  String.ofList (name.map Char.toLower)

/-- Whether documents are written in this media type. -/
def isJson (media : MediaType) : Bool :=
  lowercase media.type = "application" &&
    (lowercase media.subtype = "json" || media.suffix.any fun name => lowercase name = "json")

end MediaType

end DataflowEditor
