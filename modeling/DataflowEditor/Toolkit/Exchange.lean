import DataflowEditor.Graph.Selection
import DataflowEditor.Toolkit.Message

/-! # What is exchanged with the toolkit

Settings and places go to the toolkit, descriptions and findings come back. Each kind has a document
form and a decoder for it. Nodes and selections go both ways in form, so that what is sent can be
read again.
-/

namespace DataflowEditor

/-! ## Settings -/

/-- How the toolkit writes the graphs that it returns. -/
structure WriteOptions where
  /-- Describe every property inside the graph. -/
  storeMetadata : Bool
deriving DecidableEq, Inhabited

namespace WriteOptions

def toJson (options : WriteOptions) : Json :=
  .obj [("store_metadata", .bool options.storeMetadata)]

def shape : RecordShape WriteOptions where
  name := "struct SerializeOptions"
  blank := ⟨false⟩
  fields := [
    .defaulted "store_metadata" Draft.boolean fun _ storeMetadata => ⟨storeMetadata⟩]

end WriteOptions

/-! ## The toolkit about itself -/

structure ToolkitProfile where
  name : String
  version : String
  capabilities : List String
deriving DecidableEq, Inhabited

namespace ToolkitProfile

def offers (info : ToolkitProfile) (capability : String) : Bool :=
  info.capabilities.contains capability

def toJson (info : ToolkitProfile) : Json :=
  .obj [("name", .str info.name), ("version", .str info.version),
    ("capabilities", .arr (info.capabilities.map .str))]

def shape : RecordShape ToolkitProfile where
  name := "struct ToolkitInfo"
  blank := ⟨"", "", []⟩
  fields := [
    .needed "name" Draft.string fun info name => { info with name },
    .needed "version" Draft.string fun info version => { info with version },
    .defaulted "capabilities" (Draft.list Draft.string) fun info capabilities =>
      { info with capabilities }]

end ToolkitProfile

/-! ## Findings -/

/-- Transformations that apply somewhere, with a text for each class of them. -/
structure Findings where
  transformations : List Json
  docstrings : Fields
deriving DecidableEq, Inhabited

namespace Findings

/-- Both findings; of two texts for one class the later counts. -/
def extend (found other : Findings) : Findings :=
  ⟨found.transformations ++ other.transformations, found.docstrings.extend other.docstrings⟩

def toFields (found : Findings) : Fields :=
  [("transformations", .arr found.transformations), ("docstrings", .obj found.docstrings)]

def shape : RecordShape Findings where
  name := "struct PatternMatches"
  blank := ⟨[], []⟩
  fields := [
    .defaulted "transformations" (Draft.list Draft.json) fun found transformations =>
      { found with transformations },
    .defaulted "docstrings" (Draft.mapping Draft.json) fun found docstrings =>
      { found with docstrings }]

end Findings

/-- The library that a graph was compiled to. -/
structure CompiledLibrary where
  filename : String
deriving DecidableEq, Inhabited

namespace CompiledLibrary

def toJson (result : CompiledLibrary) : Json :=
  .obj [("filename", .str result.filename)]

def shape : RecordShape CompiledLibrary where
  name := "struct CompileResult"
  blank := ⟨""⟩
  fields := [.needed "filename" Draft.string fun _ filename => ⟨filename⟩]

end CompiledLibrary

/-- A graph as the toolkit returns it. -/
structure ReturnedGraph where
  graph : Json
deriving DecidableEq, Inhabited

def ReturnedGraph.shape : RecordShape ReturnedGraph where
  name := "struct GraphResult"
  blank := ⟨.null⟩
  fields := [.needed "sdfg" Draft.json fun _ graph => ⟨graph⟩]

/-! ## Places -/

namespace Location

/-- A node as an array of its numbers. -/
def toJson (location : Location) : Json :=
  .arr [.nat location.graph, .nat location.state, .nat location.node]

def shape : RecordShape Location where
  name := "an array of length 3"
  blank := ⟨0, 0, 0⟩
  fields := [
    .needed "graph" Draft.index fun location graph => { location with graph },
    .needed "state" Draft.index fun location state => { location with state },
    .needed "node" Draft.index fun location node => { location with node }]

/-- Where an array of numbers ends too soon, the message asks for all three. -/
def decode : Decoder Location
  | .array deep items closed =>
    match shape.decode (.array deep items closed) with
    | .error (.mismatch [] (.length found _)) => .error (.mismatch [] (.length found shape.name))
    | result => result
  | draft => draft.refuse shape.name

end Location

namespace SelectedSubgraph

def toJson : SelectedSubgraph → Json
  | .states id places =>
    .obj [("kind", .str "states"), ("graph", .nat id), ("states", .arr (places.map .nat))]
  | .nodes id place indices =>
    .obj [("kind", .str "nodes"), ("graph", .nat id), ("state", .nat place),
      ("nodes", .arr (indices.map .nat))]

/-- The kinds of selections. -/
inductive Kind where
  | states
  | nodes
deriving DecidableEq, Inhabited

def Kind.decode : Decoder Kind := fun draft => do
  match ← draft.textAs "variant identifier" with
  | "states" => return .states
  | "nodes" => return .nodes
  | name => .error (.mismatch [] (.variant name ["states", "nodes"]))

/-- The numbers of a selection, before its kind tells which of them count. -/
structure Numbers where
  graph : Nat
  state : Nat
  picked : List Nat

def statesShape : RecordShape Numbers where
  name := "struct variant SubgraphSelection::States"
  blank := ⟨0, 0, []⟩
  fields := [
    .needed "graph" Draft.index fun numbers graph => { numbers with graph },
    .needed "states" (Draft.list Draft.index) fun numbers picked => { numbers with picked }]

def nodesShape : RecordShape Numbers where
  name := "struct variant SubgraphSelection::Nodes"
  blank := ⟨0, 0, []⟩
  fields := [
    .needed "graph" Draft.index fun numbers graph => { numbers with graph },
    .needed "state" Draft.index fun numbers state => { numbers with state },
    .needed "nodes" (Draft.list Draft.index) fun numbers picked => { numbers with picked }]

/-- Decode what is left when the kind is known. -/
def decodeRest (kind : Kind) (rest : Draft) : Except DecodeFault SelectedSubgraph :=
  let (shape, build) : RecordShape Numbers × (Numbers → SelectedSubgraph) := match kind with
    | .states => (statesShape, fun numbers => .states numbers.graph numbers.picked)
    | .nodes => (nodesShape, fun numbers => .nodes numbers.graph numbers.state numbers.picked)
  match shape.decode rest with
  | .ok numbers => .ok (build numbers)
  | .error (.mismatch [] (.excess found)) =>
    .error (.mismatch [] (.length found
      (Text.decimal shape.fields.length ++ " elements in sequence")))
  | .error fault => .error fault

/-- A selection is an object whose member `kind` tells what its other members are, or an array that
begins with the kind. -/
def decode : Decoder SelectedSubgraph
  | .object deep members closed =>
    match members.find? fun member => member.1 = some "kind" with
    | none => .error (.mismatch [] (.missing "kind"))
    | some (_, kind) => do
      decodeRest (← Kind.decode kind)
        (.object deep (members.filter fun member => member.1 ≠ some "kind") closed)
  | .array _ [] _ => .error (.mismatch [] (.missing "kind"))
  | .array deep (kind :: rest) closed => do
    decodeRest (← Kind.decode kind) (.array deep rest closed)
  | draft => draft.refuse "internally tagged enum SubgraphSelection"

end SelectedSubgraph

end DataflowEditor
