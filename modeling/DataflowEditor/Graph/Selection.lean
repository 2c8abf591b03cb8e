import DataflowEditor.Graph.Descriptor
import DataflowEditor.Graph.Locate

/-! # What a selection asks for

The selected elements may form a subgraph: several states of one graph, or several nodes of one
state. Descriptors of states and nodes have to name elements of the graph at hand. Other descriptors
only count as touching the graph that they give. A selection that touches several graphs forms no
subgraph.
-/

namespace DataflowEditor

/-- A subgraph given by its elements. -/
inductive SelectedSubgraph where
  | states (graph : Nat) (states : List Nat)
  | nodes (graph state : Nat) (nodes : List Nat)
deriving DecidableEq, Inhabited

namespace SelectedSubgraph

def isOfStates : SelectedSubgraph → Bool
  | .states _ _ => true
  | .nodes _ _ _ => false

def graphIndex : SelectedSubgraph → Nat
  | .states id _ => id
  | .nodes id _ _ => id

end SelectedSubgraph

structure Selection where
  /-- The graphs that are touched, in ascending order. -/
  graphs : List Nat
  subgraph : Option SelectedSubgraph
deriving DecidableEq, Inhabited

/-- Add a number to an ascending list without repetition. -/
def insertAscending (n : Nat) : List Nat → List Nat
  | [] => [n]
  | m :: rest =>
    if n = m then m :: rest
    else if n < m then n :: m :: rest
    else m :: insertAscending n rest

/-- The elements of a list, each once, in the order in which they first occur. -/
def firstOccurrences (places : List Nat) : List Nat :=
  places.foldl (fun picked place => if place ∈ picked then picked else picked ++ [place]) []

namespace Selection

/-- The graph that a descriptor of another kind gives. -/
def touchedGraph? (descriptor : Json) : Option Nat :=
  ((descriptor.member? "sdfg_id").or (descriptor.member? "sdfgId")).bind Json.asNat?

/-- Whether a descriptor names a state or a node. -/
def namesElement (descriptor : Json) : Bool :=
  match (descriptor.member? "type").bind Json.asString? with
  | some "state" => true
  | some "node" => true
  | _ => false

/-- What a descriptor adds to a selection: the graph that it touches, and the element that it
names. -/
def contribution (arena : Arena) (descriptor : Json) :
    Except GraphError (Option Nat × Option Element) :=
  if namesElement descriptor then do
    let element ← Element.ofDescriptor descriptor
    let _ ← arena.locate element.address
    return (some element.graphIndex, some element)
  else return (touchedGraph? descriptor, none)

def statePair? : Element → Option (Nat × Nat)
  | .state id place => some (id, place)
  | _ => none

def nodeTriple? : Element → Option (Nat × Nat × Nat)
  | .node id place index => some (id, place, index)
  | _ => none

/-- The subgraph formed by elements of one graph. States count before nodes, and nodes only if they
share their state. -/
def subgraphOf (elements : List Element) : Option SelectedSubgraph :=
  let states := elements.filterMap statePair?
  let nodes := elements.filterMap nodeTriple?
  match states, nodes with
  | (id, _) :: _, _ => some (.states id (firstOccurrences (states.map (·.2))))
  | [], (id, place, _) :: _ =>
    if nodes.all fun node => node.1 = id && node.2.1 = place then
      some (.nodes id place (firstOccurrences (nodes.map (·.2.2))))
    else none
  | [], [] => none

/-- The selection of a list of descriptors. The first descriptor that fails decides. -/
def ofDescriptors (arena : Arena) (selected : List Json) : Except GraphError Selection := do
  let contributions ← selected.mapM (contribution arena)
  let graphs := (contributions.filterMap (·.1)).foldl (fun all id => insertAscending id all) []
  let elements := contributions.filterMap (·.2)
  return ⟨graphs, if 1 < graphs.length then none else subgraphOf elements⟩

def touchesSeveral (selection : Selection) : Bool :=
  1 < selection.graphs.length

/-- The subgraph to ask about. Several states are never asked about. -/
def askable (selection : Selection) : Option SelectedSubgraph :=
  selection.subgraph.filter fun subgraph => !subgraph.isOfStates

end Selection

end DataflowEditor
