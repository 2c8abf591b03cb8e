import DataflowEditor.Graph.Error
import DataflowEditor.Json.Basic

/-! # Graphs of graphs

A dataflow graph holds states, a state holds nodes, and a node may hold a whole graph again. An
arena is such a nest laid out flat: a list of graphs in which a node refers to the graph it owns by
index. The first graph is the root. Whatever the program does not interpret stays in the `fields` of
the element it came with.
-/

namespace DataflowEditor

/-- The place of a node in an arena. -/
structure Location where
  graph : Nat
  state : Nat
  node : Nat
deriving DecidableEq, Inhabited

/-- An edge between two elements of one container, given by their places. -/
structure Edge where
  source : Nat
  target : Nat
  fields : Fields
deriving DecidableEq, Inhabited

/-- A dataflow node, with the graph it owns if it owns one. -/
structure Node where
  nested : Option Nat
  fields : Fields
deriving DecidableEq, Inhabited

structure State where
  nodes : List Node
  edges : List Edge
  fields : Fields
deriving DecidableEq, Inhabited

/-- One graph of an arena. The root has no owner. -/
structure Subgraph where
  states : List State
  edges : List Edge
  owner : Option Location
  fields : Fields
deriving DecidableEq, Inhabited

structure Arena where
  graphs : List Subgraph
deriving DecidableEq, Inhabited

/-- An index in a document: a number, or the text of one. -/
def Json.asIndex? : Json → Option Nat
  | .str text => (Text.readUnsigned (wordCount - 1) text.toList).toOption
  | document => document.asNat?

/-- Change the attributes, an object of its own among the fields. Anything else in its place gives
way to an empty object. -/
def Fields.modifyAttributes (fields : Fields) (change : Fields → Fields) : Fields :=
  let attributes := ((fields.value? "attributes").bind Json.asObject?).getD []
  fields.put "attributes" (.obj (change attributes))

namespace Node

/-- The name of the node's type. -/
def kind (node : Node) : String :=
  node.fields.text "type"

def label (node : Node) : String :=
  node.fields.text "label"

end Node

def State.label (state : State) : String :=
  state.fields.text "label"

namespace Subgraph

def attributes? (graph : Subgraph) : Option Fields :=
  (graph.fields.value? "attributes").bind Json.asObject?

def name (graph : Subgraph) : String :=
  (graph.attributes?.getD []).text "name"

/-- The graphs owned by nodes of this graph, in the order of states and nodes. -/
def children (graph : Subgraph) : List Nat :=
  graph.states.flatMap fun state => state.nodes.filterMap Node.nested

end Subgraph

namespace Arena

variable (arena : Arena)

/-! ## Looking up elements -/

def graph (id : Nat) : Except GraphError Subgraph :=
  match arena.graphs[id]? with
  | some graph => .ok graph
  | none => .error (.graphNotFound (signedWord id))

def state (id place : Nat) : Except GraphError State := do
  let graph ← arena.graph id
  match graph.states[place]? with
  | some state => .ok state
  | none => .error (.stateOutOfRange id (signedWord place))

def node (location : Location) : Except GraphError Node := do
  let state ← arena.state location.graph location.state
  match state.nodes[location.node]? with
  | some node => .ok node
  | none => .error (.nodeOutOfRange location.graph location.state (signedWord location.node))

/-- The root graph. An arena without graphs has an empty one. -/
def root : Subgraph :=
  arena.graphs.headD default

/-- The node that owns a graph, as the graph has it on record. -/
def recordedOwner (id : Nat) : Option Location :=
  arena.graphs[id]?.bind Subgraph.owner

/-! ## Changing elements in place -/

def modifyGraph (id : Nat) (change : Subgraph → Subgraph) : Arena :=
  ⟨arena.graphs.modify id change⟩

def modifyState (id place : Nat) (change : State → State) : Arena :=
  arena.modifyGraph id fun graph => { graph with states := graph.states.modify place change }

def modifyNode (location : Location) (change : Node → Node) : Arena :=
  arena.modifyState location.graph location.state fun state =>
    { state with nodes := state.nodes.modify location.node change }

end Arena

end DataflowEditor
