import DataflowEditor.Graph.Basic

/-! # Depth-first order of graphs

After an edit the graphs of an arena may be out of order, and some may no longer be reached from the
root. Putting an arena in order walks it from the root, keeps the graphs in the order in which they
are met, renames the references of nodes accordingly, and puts the owners on record again.
-/

namespace DataflowEditor.Arena

/-- The graphs met on a walk that starts with the graphs in hand and puts the children of a graph in
front of all others. The walk ends after a given number of graphs. -/
def walk (arena : Arena) : Nat → List Nat → List Nat
  | 0, _ => []
  | _, [] => []
  | fuel + 1, id :: waiting =>
    id :: walk arena fuel ((arena.graphs[id]?.elim [] Subgraph.children) ++ waiting)

/-- The graphs reached from the root, in depth-first order. In a nest none is met twice. -/
def order (arena : Arena) : List Nat :=
  arena.walk arena.graphs.length [0]

/-- Rename the graphs that nodes own; a graph without a new name is owned no longer. -/
def renameNested (rename : Nat → Option Nat) (graph : Subgraph) : Subgraph :=
  { graph with
    states := graph.states.map fun state =>
      { state with nodes := state.nodes.map fun node =>
          { node with nested := node.nested.bind rename } } }

/-- Every node of a graph that owns a graph, with the graph it owns. -/
def ownersIn (id : Nat) (graph : Subgraph) : List (Nat × Location) :=
  (graph.states.zipIdx.flatMap fun (state, place) =>
    state.nodes.zipIdx.filterMap fun (node, index) =>
      node.nested.map fun nested => (nested, ⟨id, place, index⟩))

def owners (arena : Arena) : List (Nat × Location) :=
  arena.graphs.zipIdx.flatMap fun (graph, id) => ownersIn id graph

/-- Put the owner of every graph on record. -/
def recordOwners (arena : Arena) : Arena :=
  let owners := arena.owners
  ⟨arena.graphs.mapIdx fun id graph => { graph with owner := owners.lookup id }⟩

/-- The arena in depth-first order, without the graphs that the root does not reach. -/
def renumber (arena : Arena) : Arena :=
  let order := arena.order
  let kept := order.filterMap fun id => arena.graphs[id]?
  recordOwners ⟨kept.map (renameNested fun id => order.idxOf? id)⟩

end DataflowEditor.Arena
