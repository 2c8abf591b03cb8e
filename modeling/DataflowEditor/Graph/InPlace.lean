import DataflowEditor.Graph.Edit

/-! # Editing in place

An editor holds one arena and changes it in place. Whatever a failed edit has written by then stays
in the arena unless the edit takes it back. Most edits look up everything they need before they
write. The decoder of a nested document cannot: it appends a graph before it has read what is in it,
so that the graphs further in come behind it, and it may fail at any depth after that.
-/

namespace DataflowEditor

/-- A computation on an arena held in place. A failure leaves the arena as it is at that moment. -/
abbrev InPlace (α : Type) := EStateM GraphError Arena α

namespace InPlace

variable {α : Type}

/-- A check that does not look at the arena. -/
def check : Except GraphError α → InPlace α
  | .ok value => pure value
  | .error error => throw error

/-- A look-up in the arena as it is. -/
def look (find : Arena → Except GraphError α) : InPlace α := do
  check (find (← get))

/-! ## Decoding -/

/-- Append a graph and give its index. -/
def appendGraph (graph : Subgraph) : InPlace Nat := do
  let arena ← get
  set (Arena.mk (arena.graphs ++ [graph]))
  return arena.graphs.length

/-- How the graph nested in a node at a location is appended, with those nested in it. -/
abbrev NestedDecoder := Location → Fields → InPlace Nat

def decodeNode (nested : NestedDecoder) (location : Location) (document : Json) :
    InPlace Node := do
  let fields ← check (Part.node.fields document)
  match ← check (Node.embedded fields) with
  | none => return ⟨none, fields⟩
  | some inner =>
    let id ← nested location inner
    return ⟨some id, Node.withoutEmbedded fields⟩

def decodeNodes (nested : NestedDecoder) (graph state : Nat) : Nat → List Json → InPlace (List Node)
  | _, [] => return []
  | place, document :: rest => do
    let node ← decodeNode nested ⟨graph, state, place⟩ document
    let nodes ← decodeNodes nested graph state (place + 1) rest
    return node :: nodes

def decodeState (nested : NestedDecoder) (graph place : Nat) (document : Json) :
    InPlace State := do
  let fields ← check (Part.state.fields document)
  let nodeDocuments ← check (Part.state.items "nodes" fields)
  let edgeDocuments ← check (Part.state.items "edges" fields)
  let nodes ← decodeNodes nested graph place 0 nodeDocuments
  let edges ← check (Edge.decodeAll nodes.length (.state graph place) 0 edgeDocuments)
  return ⟨nodes, edges, (fields.without "nodes").without "edges"⟩

def decodeStates (nested : NestedDecoder) (graph : Nat) : Nat → List Json → InPlace (List State)
  | _, [] => return []
  | place, document :: rest => do
    let state ← decodeState nested graph place document
    let states ← decodeStates nested graph (place + 1) rest
    return state :: states

/-- The states and edges of a graph. The graphs nested in it are appended. -/
def decodeContents (nested : NestedDecoder) (id : Nat) (fields : Fields) :
    InPlace (List State × List Edge) := do
  let stateDocuments ← check (Part.graph.items "nodes" fields)
  let edgeDocuments ← check (Part.graph.items "edges" fields)
  let states ← decodeStates nested id 0 stateDocuments
  let edges ← check (Edge.decodeAll states.length (.graph id) 0 edgeDocuments)
  return (states, edges)

/-- Append a graph without contents, so that it stands in front of those nested in it, and fill it
in at the end. -/
def decodeGraphWith (nested : NestedDecoder) (owner : Option Location) (fields : Fields) :
    InPlace Nat := do
  check (Subgraph.checkKind fields)
  let id ← appendGraph ⟨[], [], owner, []⟩
  let (states, edges) ← decodeContents nested id fields
  modify fun arena => arena.modifyGraph id fun graph =>
    { graph with states, edges, fields := (fields.without "nodes").without "edges" }
  return id

/-- Decode to a given depth of nesting. -/
def decodeGraphWithin : Nat → Option Location → Fields → InPlace Nat
  | 0, _, _ => throw (.invalidGraph .nothingNested)
  | fuel + 1, owner, fields =>
    decodeGraphWith (fun location inner => decodeGraphWithin fuel (some location) inner) owner
      fields

/-- Append the graph of a document. Graphs are never nested deeper than the document itself. -/
def decodeGraph (owner : Option Location) (fields : Fields) : InPlace Nat :=
  decodeGraphWithin (Json.depthMembers fields + 1) owner fields

/-- Decode a document into an arena that holds nothing yet. -/
def load (document : Json) : InPlace Unit := do
  let fields ← check (Part.graph.fields document)
  let _ ← decodeGraph none fields

/-! ## Edits -/

def pushState (id : Nat) (fields : Fields) : InPlace Nat := do
  let graph ← look (·.graph id)
  modify (·.modifyGraph id (·.pushState ⟨[], [], fields⟩))
  return graph.states.length

def pushNode (id place : Nat) (node : Node) : InPlace Nat := do
  if node.nested.isSome then throw (.unsupportedElement .nestedNode)
  let state ← look (·.state id place)
  modify (·.modifyState id place (·.pushNode node))
  return state.nodes.length

/-- Append a graph for a node that is not there yet. If that fails, the graphs appended so far are
cut off again. -/
def pushNestedNode (id place : Nat) (fields : Fields) (document : Json) : InPlace Nat := do
  let state ← look (·.state id place)
  let inner ← check (Part.nested.fields document)
  let kept := (← get).graphs.length
  let nested ← tryCatch (decodeGraph (some ⟨id, place, state.nodes.length⟩) inner) fun error => do
    modify fun arena => ⟨arena.graphs.take kept⟩
    throw error
  let _ ← look (·.state id place)
  modify (·.modifyState id place (·.pushNode ⟨some nested, fields⟩))
  modify Arena.renumber
  return state.nodes.length

def connectNodes (id place source target : Nat) (fields : Fields) : InPlace Nat := do
  let state ← look (·.state id place)
  let bound := state.nodes.length
  if bound ≤ source ∨ bound ≤ target then
    throw (.invalidGraph (.nodesOutside source target bound))
  modify (·.modifyState id place (·.pushEdge ⟨source, target, fields⟩))
  return state.edges.length

def connectStates (id source target : Nat) (fields : Fields) : InPlace Nat := do
  let graph ← look (·.graph id)
  let bound := graph.states.length
  if bound ≤ source ∨ bound ≤ target then
    throw (.invalidGraph (.statesOutside source target bound))
  modify (·.modifyGraph id (·.pushEdge ⟨source, target, fields⟩))
  return graph.edges.length

def eraseState (id place : Nat) : InPlace Unit := do
  let _ ← look (·.state id place)
  let _ ← look (·.graph id)
  modify (·.modifyGraph id (·.eraseState place))
  modify Arena.renumber

def eraseNode (location : Location) : InPlace Unit := do
  let _ ← look (·.node location)
  let _ ← look (·.state location.graph location.state)
  modify (·.modifyState location.graph location.state (·.eraseNode location.node))
  modify Arena.renumber

def erase : Element → InPlace Unit
  | .graph id => do
    let _ ← look (·.graph id)
    match (← get).recordedOwner id with
    | some owner => eraseNode owner
    | none => throw (.unsupportedElement .rootRemoval)
  | .state id place => eraseState id place
  | .node id place index => eraseNode ⟨id, place, index⟩
  | .edge id (some place) index => do
    let state ← look (·.state id place)
    if state.edges.length ≤ index then
      throw (.edgeOutOfRange (.state id place) (signedWord index))
    modify (·.modifyState id place (·.eraseEdge index))
  | .edge id none index => do
    let graph ← look (·.graph id)
    if graph.edges.length ≤ index then
      throw (.edgeOutOfRange (.graph id) (signedWord index))
    modify (·.modifyGraph id (·.eraseEdge index))

/-- Carry out an edit. One that adds an element gives the place of it. -/
def edit : Edit → InPlace (Option Nat)
  | .pushState id fields => some <$> pushState id fields
  | .pushNode id place node => some <$> pushNode id place node
  | .pushNestedNode id place fields document => some <$> pushNestedNode id place fields document
  | .connectNodes id place source target fields =>
    some <$> connectNodes id place source target fields
  | .connectStates id source target fields => some <$> connectStates id source target fields
  | .erase element => do
    erase element
    return none
  | .uninstrument => do
    modify Arena.uninstrumented
    return none

/-- What an edit leaves, whether it succeeds or fails. -/
def afterEdit (arena : Arena) (request : Edit) : Arena :=
  match (edit request).run arena with
  | .ok _ left => left
  | .error _ left => left

/-- What edits in turn leave. -/
def afterEdits (arena : Arena) (requests : List Edit) : Arena :=
  requests.foldl afterEdit arena

end InPlace

end DataflowEditor
