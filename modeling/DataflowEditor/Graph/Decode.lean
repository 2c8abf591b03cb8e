import DataflowEditor.Compression.Gzip
import DataflowEditor.Graph.Basic
import DataflowEditor.Json.Depth
import DataflowEditor.Json.Draft

/-! # Decoding graphs

A graph document becomes an arena in one walk: a graph takes the next free index, and the graphs
nested in it follow in the order in which their nodes stand, each with all its own before the next.
The index of a graph is therefore its place in depth-first order.
-/

namespace DataflowEditor

/-- The members of a part that has to be an object. -/
def Part.fields (part : Part) (document : Json) : Except GraphError Fields :=
  match document with
  | .obj members => .ok members
  | other => .error (.invalidGraph (.notObject part other.kind))

/-- The list under a key. Null and nothing stand for the empty list. -/
def Part.items (part : Part) (key : String) (fields : Fields) : Except GraphError (List Json) :=
  match fields.value? key with
  | none => .ok []
  | some .null => .ok []
  | some (.arr items) => .ok items
  | some other => .error (.invalidGraph (.notArray key part other.kind))

namespace Edge

/-- One end of an edge, below the number of elements it may name. -/
def endpoint (place bound : Nat) (container : Container) (key : String) (fields : Fields) :
    Except GraphError Nat :=
  match (fields.value? key).bind Json.asIndex? with
  | none => .error (.invalidGraph (.noEndpoint place container key))
  | some index =>
    if index < bound then .ok index
    else .error (.invalidGraph (.endpointOutside place container index bound))

def decode (place bound : Nat) (container : Container) (document : Json) :
    Except GraphError Edge := do
  let fields ← Part.edge.fields document
  let source ← endpoint place bound container "src" fields
  let target ← endpoint place bound container "dst" fields
  return ⟨source, target, (fields.without "src").without "dst"⟩

def decodeAll (bound : Nat) (container : Container) :
    Nat → List Json → Except GraphError (List Edge)
  | _, [] => .ok []
  | place, document :: rest => do
    let edge ← decode place bound container document
    let edges ← decodeAll bound container (place + 1) rest
    return edge :: edges

end Edge

namespace Node

/-- The graph document embedded in a node, if its type says that there is one. -/
def embedded (fields : Fields) : Except GraphError (Option Fields) :=
  if (fields.value? "type").bind Json.asString? = some "NestedSDFG" then
    match ((fields.value? "attributes").bind Json.asObject?).bind (Fields.value? · "sdfg") with
    | some document => (Part.nested.fields document).map some
    | none => .error (.invalidGraph .nothingNested)
  else .ok none

/-- The fields of a node without its embedded graph. -/
def withoutEmbedded (fields : Fields) : Fields :=
  fields.modifyAttributes fun attributes => attributes.without "sdfg"

end Node

/-- How a graph nested in a node at a location is decoded: the block of graphs that it takes up from
the given index on, itself first. -/
abbrev NestedDecoder := Nat → Location → Fields → Except GraphError (List Subgraph)

namespace State

/-- The nodes of a state, from the one at `place` on, and the blocks of graphs nested in them. -/
def decodeNodes (nested : NestedDecoder) (graph state : Nat) :
    (next place : Nat) → List Json → Except GraphError (List Node × List Subgraph)
  | _, _, [] => .ok ([], [])
  | next, place, document :: rest => do
    let fields ← Part.node.fields document
    match ← Node.embedded fields with
    | none =>
      let (nodes, blocks) ← decodeNodes nested graph state next (place + 1) rest
      return (⟨none, fields⟩ :: nodes, blocks)
    | some inner =>
      let block ← nested next ⟨graph, state, place⟩ inner
      let (nodes, blocks) ← decodeNodes nested graph state (next + block.length) (place + 1) rest
      return (⟨some next, Node.withoutEmbedded fields⟩ :: nodes, block ++ blocks)

def decode (nested : NestedDecoder) (graph next place : Nat) (document : Json) :
    Except GraphError (State × List Subgraph) := do
  let fields ← Part.state.fields document
  let nodeDocuments ← Part.state.items "nodes" fields
  let edgeDocuments ← Part.state.items "edges" fields
  let (nodes, blocks) ← decodeNodes nested graph place next 0 nodeDocuments
  let edges ← Edge.decodeAll nodes.length (.state graph place) 0 edgeDocuments
  return (⟨nodes, edges, (fields.without "nodes").without "edges"⟩, blocks)

def decodeAll (nested : NestedDecoder) (graph : Nat) :
    (next place : Nat) → List Json → Except GraphError (List State × List Subgraph)
  | _, _, [] => .ok ([], [])
  | next, place, document :: rest => do
    let (state, block) ← decode nested graph next place document
    let (states, blocks) ← decodeAll nested graph (next + block.length) (place + 1) rest
    return (state :: states, block ++ blocks)

end State

namespace Subgraph

/-- A document that names a type has to name that of graphs. -/
def checkKind (fields : Fields) : Except GraphError Unit :=
  match (fields.value? "type").bind Json.asString? with
  | some "SDFG" => .ok ()
  | some other => .error (.invalidGraph (.otherType other))
  | none => .ok ()

/-- One graph and those nested in it, from index `id` on. -/
def decodeWith (nested : NestedDecoder) (id : Nat) (owner : Option Location) (fields : Fields) :
    Except GraphError (List Subgraph) := do
  checkKind fields
  let stateDocuments ← Part.graph.items "nodes" fields
  let edgeDocuments ← Part.graph.items "edges" fields
  let (states, blocks) ← State.decodeAll nested id (id + 1) 0 stateDocuments
  let edges ← Edge.decodeAll states.length (.graph id) 0 edgeDocuments
  return ⟨states, edges, owner, (fields.without "nodes").without "edges"⟩ :: blocks

/-- Decode to a given depth of nesting. -/
def decodeWithin : Nat → Nat → Option Location → Fields → Except GraphError (List Subgraph)
  | 0, _, _, _ => .error (.invalidGraph .nothingNested)
  | fuel + 1, id, owner, fields =>
    decodeWith (fun next location inner => decodeWithin fuel next (some location) inner)
      id owner fields

/-- The block of graphs that a document takes up from index `id` on. Graphs are never nested deeper
than the document itself. -/
def decode (id : Nat) (owner : Option Location) (fields : Fields) :
    Except GraphError (List Subgraph) :=
  decodeWithin (Json.depthMembers fields + 1) id owner fields

end Subgraph

namespace Arena

/-- The arena of a graph document. -/
def ofJson (document : Json) : Except GraphError Arena := do
  let fields ← Part.graph.fields document
  let graphs ← Subgraph.decode 0 none fields
  return ⟨graphs⟩

/-- The arena of the text of a graph document. -/
def ofText (text : String) : Except GraphError Arena :=
  match Json.ofText? text with
  | some document => ofJson document
  | none => .error .unreadable

/-! ## Graph files

A graph is stored as the text of its document, plain or compressed. A file whose first octet other
than space is an opening brace is plain, and so is one that holds nothing but space.
-/

/-- Space in the sense of a file: blank, tab, line feed, form feed and carriage return. -/
def isFileSpace (octet : UInt8) : Bool :=
  octet = 0x20 || octet = 0x09 || octet = 0x0a || octet = 0x0c || octet = 0x0d

def isPlainFile (octets : List UInt8) : Bool :=
  match octets.dropWhile isFileSpace with
  | [] => true
  | octet :: _ => octet = 0x7b

/-- The arena of the octets of a document. -/
def ofOctets (octets : List UInt8) : Except GraphError Arena :=
  match Json.ofOctets? octets with
  | some document => ofJson document
  | none => .error .unreadable

/-- The arena of a graph file. -/
def ofFile (octets : List UInt8) : Except GraphError Arena :=
  if isPlainFile octets then ofOctets octets
  else match Compression.gunzip? octets with
    | some contents => ofOctets contents
    | none => .error (.file .unusable)

end Arena

end DataflowEditor
