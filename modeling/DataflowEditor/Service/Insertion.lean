import DataflowEditor.Envelope
import DataflowEditor.Graph.Encode
import DataflowEditor.Graph.Locate
import DataflowEditor.Text.Blank

/-! # Inserting elements

The editor asks for an element by its kind and names the element to put it into, or the two ends of
an edge. The daemon adds the element, with the fields that a new element of its kind has, and
answers with the graph and the addresses of what is new. An edge has no address yet that the editor
could use.
-/

namespace DataflowEditor

structure InsertionRequest where
  graph : Json
  /-- The kind of element; behind a bar, the class of a library node. -/
  kind : String
  /-- The address of the container, or of the end of an edge; the root graph without one. -/
  parent : Option String
  /-- The address of the start of an edge. -/
  start : Option String
deriving DecidableEq, Inhabited

def InsertionRequest.shape : RecordShape InsertionRequest where
  name := "struct InsertRequest"
  blank := ⟨.null, "", none, none⟩
  fields := [
    .needed "sdfg" Draft.json fun request graph => { request with graph },
    .needed "type" Draft.string fun request kind => { request with kind },
    .defaulted "parent" (Draft.optional Draft.string) fun request parent =>
      { request with parent },
    .defaulted "edge_a" (Draft.optional Draft.string) fun request start =>
      { request with start }]

/-- The graph with the new elements, and their addresses. -/
structure Inserted where
  graph : Json
  addresses : List String
deriving DecidableEq, Inhabited

def Inserted.toJson (inserted : Inserted) : Json :=
  .obj [("sdfg", inserted.graph), ("uuid", .arr (inserted.addresses.map .str))]

/-! ## Kinds -/

/-- What can be put into a state. -/
inductive NodeKind where
  | access
  | map
  | consume
  | tasklet
  | nested
  | library (classpath : String)
deriving DecidableEq, Inhabited

inductive InsertKind where
  | state
  | node (kind : NodeKind)
  /-- A library node whose class is not given. -/
  | unnamedLibrary
  | edge
deriving DecidableEq, Inhabited

namespace InsertKind

/-- A library node by its class path, which may be missing or blank. -/
def ofClasspath (classpath : List Char) : InsertKind :=
  match Text.trim classpath with
  | [] => .unnamedLibrary
  | path => .node (.library (String.ofList path))

/-- The kind with a name; the text behind the bar only matters to library nodes. -/
def ofName? (name : String) (rest : List Char) : Option InsertKind :=
  match name with
  | "SDFGState" => some .state
  | "AccessNode" => some (.node .access)
  | "Map" => some (.node .map)
  | "Consume" => some (.node .consume)
  | "Tasklet" => some (.node .tasklet)
  | "NestedSDFG" => some (.node .nested)
  | "LibraryNode" => some (ofClasspath rest)
  | "Edge" => some .edge
  | _ => none

def ofText? (text : String) : Option InsertKind :=
  match Text.splitOnce ['|'] text.toList with
  | some (name, rest) => ofName? (String.ofList name) rest
  | none => ofName? text []

def failedMessage : InsertKind → String
  | .state => "Failed to add state"
  | .node .access => "Failed to add access node"
  | .node .map => "Failed to add map"
  | .node .consume => "Failed to add consume scope"
  | .node .tasklet => "Failed to add tasklet"
  | .node .nested => "Failed to add nested SDFG"
  | .node (.library _) => "Failed to add library node"
  | .unnamedLibrary => "Failed to add library node"
  | .edge => "Failed to add edge"

end InsertKind

def insertFailedMessage : String :=
  "Failed to add element"

/-- The address given for an edge. -/
def noAddress : String :=
  "NONE"

/-! ## Fields of new elements -/

def newArray (elementType : String) : Json :=
  .obj [("type", .str "Array"), ("attributes", .obj [("dtype", .str elementType),
    ("shape", .arr [.str "1"]), ("transient", .bool false)])]

def newState (label : String) : Fields :=
  [("type", .str "SDFGState"), ("label", .str label), ("attributes", .obj [])]

/-- The fields of a node outside every scope. -/
def newNode (type label : String) (attributes : Fields) : Fields :=
  [("type", .str type), ("label", .str label), ("attributes", .obj attributes),
    ("scope_entry", .null), ("scope_exit", .null)]

/-- One connector in and one out. -/
def newConnectors : Fields :=
  [("in_connectors", .obj [("in", .null)]), ("out_connectors", .obj [("out", .null)])]

def newTasklet : Fields :=
  newNode "Tasklet" "placeholder" ([("label", .str "placeholder"),
    ("code", .obj [("string_data", .str ""), ("language", .str "Python")])] ++ newConnectors)

def newNestedNode : Fields :=
  newNode "NestedSDFG" "nested_sdfg" ([("label", .str "nested_sdfg")] ++ newConnectors)

/-- The graph in a new nested node. -/
def newNestedGraph : Json :=
  .obj [("type", .str "SDFG"), ("attributes", .obj [("name", .str "nested_sdfg"),
    ("_arrays", .obj [("in", newArray "float32"), ("out", newArray "float32")])]),
    ("nodes", .arr []), ("edges", .arr [])]

def newAccessNode (data : String) : Fields :=
  newNode "AccessNode" data [("data", .str data)]

/-- A library node is named like its class, without the modules in front. -/
def newLibraryNode (classpath : String) : Fields :=
  let name := String.ofList (Text.afterLast '.' classpath.toList)
  [("type", .str name), ("label", .str name), ("classpath", .str classpath),
    ("attributes", .obj [("name", .str name), ("label", .str name)]),
    ("scope_entry", .null), ("scope_exit", .null)]

/-- A scope: the two nodes that open and close it, put at `place` and behind it. -/
structure NewScope where
  entry : String
  exit : String
  label : String
  attributes : Fields

namespace NewScope

def map : NewScope :=
  ⟨"MapEntry", "MapExit", "map", [("label", .str "map"), ("params", .arr [.str "i"]),
    ("range", .obj [("type", .str "Range"), ("ranges", .arr [.obj [("start", .str "0"),
      ("end", .str "0"), ("step", .str "1"), ("tile", .str "1")]])])]⟩

def consume : NewScope :=
  ⟨"ConsumeEntry", "ConsumeExit", "consume", [("label", .str "consume"),
    ("pe_index", .str "i"), ("num_pes", .str "1")]⟩

def entryFields (scope : NewScope) (place : Nat) : Fields :=
  [("type", .str scope.entry), ("label", .str scope.label),
    ("attributes", .obj scope.attributes), ("scope_entry", .null),
    ("scope_exit", .str (Text.decimal (place + 1)))]

def exitFields (scope : NewScope) (place : Nat) : Fields :=
  [("type", .str scope.exit), ("label", .str scope.label), ("attributes", .obj []),
    ("scope_entry", .str (Text.decimal place)), ("scope_exit", .str (Text.decimal (place + 1)))]

end NewScope

def newStateEdge : Fields :=
  [("type", .str "MultiConnectorEdge"), ("src_connector", .null), ("dst_connector", .null),
    ("attributes", .obj [("data", .obj [("type", .str "Memlet"), ("attributes", .obj [])])])]

def newInterstateEdge : Fields :=
  [("type", .str "Edge"), ("attributes", .obj [("data", .obj [("type", .str "InterstateEdge"),
    ("attributes", .obj [])])])]

/-! ## Data containers -/

/-- The attributes with a data container among them, and the name of the first one. -/
def withContainer (attributes : Fields) : Fields × String :=
  match (attributes.value? "_arrays").bind Json.asObject? with
  | some ((name, _) :: _) => (attributes, name)
  | _ => (attributes.put "_arrays" (.obj [("tmp", newArray "float64")]), "tmp")

namespace Arena

variable (arena : Arena)

/-- The name of the first data container of a graph, which gets one if it has none. -/
def firstContainer (id : Nat) : Except GraphError (Arena × String) := do
  let graph ← arena.graph id
  let (_, name) := withContainer (graph.attributes?.getD [])
  return (arena.modifyGraph id fun graph =>
    { graph with fields := graph.fields.modifyAttributes fun attributes =>
        (withContainer attributes).1 }, name)

/-! ## Inserting -/

/-- The graph that a new state goes into: a graph itself, or the one in a nested node. -/
def stateContainer : Element → Except GraphError Nat
  | .graph id => .ok id
  | .node id place index => do
    match (← arena.node ⟨id, place, index⟩).nested with
    | some nested => return nested
    | none =>
      .error (.unsupportedElement (.stateUnderNode (Element.node id place index).toText))
  | other => .error (.unsupportedElement (.stateUnder other.toText))

/-- A new state is named after the number of states before it. -/
def insertState (parent : Element) : Except GraphError (Arena × List Element) := do
  let id ← arena.stateContainer parent
  let graph ← arena.graph id
  let label := "state_" ++ Text.decimal graph.states.length
  let (arena, place) ← arena.pushState id (newState label)
  return (arena, [.state id place])

def insertPlain (id place : Nat) (fields : Fields) : Except GraphError (Arena × List Element) := do
  let (arena, index) ← arena.pushNode id place ⟨none, fields⟩
  return (arena, [.node id place index])

/-- Add both ends of a scope. -/
def insertScope (id place : Nat) (scope : NewScope) :
    Except GraphError (Arena × List Element) := do
  let next := (← arena.state id place).nodes.length
  let (arena, entry) ← arena.pushNode id place ⟨none, scope.entryFields next⟩
  let (arena, exit) ← arena.pushNode id place ⟨none, scope.exitFields next⟩
  return (arena, [.node id place entry, .node id place exit])

/-- Add nodes to a state. -/
def insertNodes (id place : Nat) : NodeKind → Except GraphError (Arena × List Element)
  | .access => do
    let (arena, data) ← arena.firstContainer id
    arena.insertPlain id place (newAccessNode data)
  | .map => arena.insertScope id place .map
  | .consume => arena.insertScope id place .consume
  | .tasklet => arena.insertPlain id place newTasklet
  | .nested => do
    let (arena, index) ← arena.pushNestedNode id place newNestedNode newNestedGraph
    return (arena, [.node id place index])
  | .library classpath => arena.insertPlain id place (newLibraryNode classpath)

/-- Connect two nodes of one state or two states of one graph; other pairs are not connected. -/
def join : (source target : Element) → Except GraphError (Option Arena)
  | .node id place source, .node id' place' target =>
    if id = id' ∧ place = place' then
      return some (← arena.connectNodes id place source target newStateEdge).1
    else return none
  | .state id source, .state id' target =>
    if id = id' then return some (← arena.connectStates id source target newInterstateEdge).1
    else return none
  | _, _ => return none

/-- The element that a request names as a parent. No address and the address of nothing stand for
the root graph. -/
def locateParent (parent : Option String) : Except GraphError Element :=
  let text := String.ofList (Text.trim ((parent.getD "").toList))
  if text = "" || text = noAddress then return .graph 0
  else do
    let address ← Address.ofText text
    if address.isNone then return .graph 0
    else return (← arena.locate address).element

end Arena

/-- The elements that a request adds, and the arena with them. -/
def insertKind (arena : Arena) (kind : InsertKind) (request : InsertionRequest) :
    Attempt (Arena × List Element) := do
  let onGraph {α : Type} (result : Except GraphError α) : Attempt α :=
    result.mapError (.ofGraphError kind.failedMessage)
  match kind with
  | .unnamedLibrary => .error ⟨kind.failedMessage, "Must provide a valid library node type"⟩
  | .edge =>
    match request.start with
    | none => .error ⟨kind.failedMessage, "No edge starting point provided"⟩
    | some start =>
      let source ← onGraph (arena.locateText start)
      let target ← onGraph (arena.locateParent request.parent)
      match ← onGraph (arena.join source.element target) with
      | some arena => return (arena, [])
      | none => .error ⟨kind.failedMessage, "Must connect two nodes or two states"⟩
  | .state => do
    let parent ← onGraph (arena.locateParent request.parent)
    onGraph (arena.insertState parent)
  | .node kind => do
    let parent ← onGraph (arena.locateParent request.parent)
    match parent with
    | .state id place => onGraph (arena.insertNodes id place kind)
    | other => onGraph (.error (.unsupportedElement (.nodeUnder other.toText)))

/-- Insert an element. -/
def InsertionRequest.run (request : InsertionRequest) : Attempt Inserted := do
  let arena ← readPayloadOrText request.graph
  match InsertKind.ofText? request.kind with
  | none =>
    .error ⟨insertFailedMessage,
      "UnsupportedElement: Unknown element type '" ++ request.kind ++ "'"⟩
  | some kind =>
    let (arena, elements) ← insertKind arena kind request
    let addresses := elements.map fun element => (arena.addressFor element).toText
    return ⟨arena.toJson, if addresses.isEmpty then [noAddress] else addresses⟩

end DataflowEditor
