import DataflowEditor.Graph.Edit
import DataflowEditor.Json.Decode
import DataflowEditor.Text.Blank

/-! # Addresses

The editor and the program share no objects: every request brings a whole graph. An element is
therefore named by its place, as four integers for graph, state, node and edge with slashes between
them, of which minus one stands for unset. A graph has only its own number set, a state also the
number of the graph, a node all but the edge, an edge between nodes all but the node, and an edge
between states the graph and the edge. Four times minus one names nothing. An address holds until
the next edit.
-/

namespace DataflowEditor

structure Address where
  graph : Int
  state : Int
  node : Int
  edge : Int
deriving DecidableEq, Inhabited

namespace Address

/-- The address of what cannot be addressed. -/
def none : Address :=
  ⟨-1, -1, -1, -1⟩

def isNone (address : Address) : Bool :=
  address = none

def toText (address : Address) : String :=
  Text.decimalInt address.graph ++ "/" ++ Text.decimalInt address.state ++ "/" ++
    Text.decimalInt address.node ++ "/" ++ Text.decimalInt address.edge

/-- What keeps four integers from being an address. -/
def fault? (address : Address) : Option AddressFault :=
  if address.graph < -1 then some (.belowUnset "graph")
  else if address.state < -1 then some (.belowUnset "state")
  else if address.node < -1 then some (.belowUnset "node")
  else if address.edge < -1 then some (.belowUnset "edge")
  else if address.node ≠ -1 ∧ address.edge ≠ -1 then some .nodeAndEdge
  else if address.node ≠ -1 ∧ address.state = -1 then some .nodeWithoutState
  else if address.graph = -1 ∧ address ≠ none then some .noGraph
  else Option.none

/-- One component: an integer between blanks. -/
def component (part : List Char) : Except AddressFault Int :=
  match Text.readSigned (Text.trim part) with
  | .ok value => .ok value
  | .error _ => .error (.notInteger (String.ofList part))

def ofParts : List (List Char) → Except AddressFault Address
  | [graph, state, node, edge] => do
    let graph ← component graph
    let state ← component state
    let node ← component node
    let edge ← component edge
    match fault? ⟨graph, state, node, edge⟩ with
    | some fault => .error fault
    | Option.none => return ⟨graph, state, node, edge⟩
  | parts => .error (.componentCount parts.length)

def ofText (text : String) : Except GraphError Address :=
  (ofParts (text.toList.splitOn '/')).mapError (.malformedAddress text)

/-- An address as a document gives it. -/
def decode : Decoder Address := fun draft => do
  match ofText (← draft.string) with
  | .ok address => return address
  | .error error => .error (.mismatch [] (.refused error.message))

end Address

/-- The address of an element. Its numbers are signed words. -/
def Element.address : Element → Address
  | .graph id => ⟨signedWord id, -1, -1, -1⟩
  | .state id place => ⟨signedWord id, signedWord place, -1, -1⟩
  | .node id place index => ⟨signedWord id, signedWord place, signedWord index, -1⟩
  | .edge id (some place) index => ⟨signedWord id, signedWord place, -1, signedWord index⟩
  | .edge id none index => ⟨signedWord id, -1, -1, signedWord index⟩

def Element.toText (element : Element) : String :=
  element.address.toText

end DataflowEditor
