import DataflowEditor.Graph.Decode
import DataflowEditor.Graph.Order

/-! # Editing graphs

Elements are added at the end of their container and removed together with everything that hangs on
them. An edit either gives the new arena or an error; the arena it was asked of is not touched.
References by place, in edges and in the fields that hold one, follow the elements they name. An
edit is also a value of its own, so that a run of edits is a list.
-/

namespace DataflowEditor

/-- One element of an arena. An edge lies in a state, or in the graph itself. -/
inductive Element where
  | graph (graph : Nat)
  | state (graph state : Nat)
  | node (graph state node : Nat)
  | edge (graph : Nat) (state : Option Nat) (edge : Nat)
deriving DecidableEq, Inhabited

namespace Element

def ofLocation (location : Location) : Element :=
  .node location.graph location.state location.node

/-- The graph that an element lies in; a graph lies in itself. -/
def graphIndex : Element → Nat
  | .graph id => id
  | .state id _ => id
  | .node id _ _ => id
  | .edge id _ _ => id

/-- The state that an element lies in, if it lies in one. -/
def statePlace : Element → Option Nat
  | .graph _ => none
  | .state _ place => some place
  | .node _ place _ => some place
  | .edge _ place _ => place

end Element

/-! ## References by place -/

/-- Where a place is found after the element at `removed` is gone. That element is found nowhere. -/
def shiftPlace (removed place : Nat) : Option Nat :=
  if place = removed then none
  else if removed < place then some (place - 1)
  else some place

/-- The edge with its ends renamed. It goes with either of them. -/
def Edge.rename (name : Nat → Option Nat) (edge : Edge) : Option Edge :=
  match name edge.source, name edge.target with
  | some source, some target => some { edge with source, target }
  | _, _ => none

/-- Another index, a number or a text as the one before. -/
def Json.reindexed (document : Json) (place : Nat) : Json :=
  match document with
  | .str _ => .str (Text.decimal place)
  | _ => .nat place

/-- Rename the element that a field names by its place. If the element is gone the field becomes
`dangling`, or goes as well where there is none. A place that stays is left as it was written. -/
def Fields.renameIndex (fields : Fields) (key : String) (name : Nat → Option Nat)
    (dangling : Option Json) : Fields :=
  match fields.value? key with
  | none => fields
  | some current =>
    match current.asIndex? with
    | none => fields
    | some place =>
      match name place with
      | some next => if next = place then fields else fields.put key (current.reindexed next)
      | none =>
        match dangling with
        | some value => fields.put key value
        | none => fields.without key

/-- The node with its scope renamed. -/
def Node.renameScope (name : Nat → Option Nat) (node : Node) : Node :=
  { node with
    fields := (node.fields.renameIndex "scope_entry" name (some .null)).renameIndex "scope_exit"
      name (some .null) }

/-! ## Containers -/

namespace State

variable (state : State)

def pushNode (node : Node) : State :=
  { state with nodes := state.nodes ++ [node] }

def pushEdge (edge : Edge) : State :=
  { state with edges := state.edges ++ [edge] }

/-- A node goes with the edges that touch it. -/
def eraseNode (index : Nat) : State :=
  { state with
    nodes := (state.nodes.eraseIdx index).map (Node.renameScope (shiftPlace index)),
    edges := state.edges.filterMap (Edge.rename (shiftPlace index)) }

def eraseEdge (index : Nat) : State :=
  { state with edges := state.edges.eraseIdx index }

end State

namespace Subgraph

variable (graph : Subgraph)

def pushState (state : State) : Subgraph :=
  { graph with states := graph.states ++ [state] }

def pushEdge (edge : Edge) : Subgraph :=
  { graph with edges := graph.edges ++ [edge] }

/-- A state goes with its nodes and the edges that touch it. -/
def eraseState (place : Nat) : Subgraph :=
  { graph with
    states := graph.states.eraseIdx place,
    edges := graph.edges.filterMap (Edge.rename (shiftPlace place)),
    fields := graph.fields.renameIndex "start_state" (shiftPlace place) none }

def eraseEdge (index : Nat) : Subgraph :=
  { graph with edges := graph.edges.eraseIdx index }

end Subgraph

/-! ## Arenas -/

namespace Arena

variable (arena : Arena)

def pushState (id : Nat) (fields : Fields) : Except GraphError (Arena × Nat) := do
  let graph ← arena.graph id
  return (arena.modifyGraph id (·.pushState ⟨[], [], fields⟩), graph.states.length)

/-- Add a node that owns no graph. -/
def pushNode (id place : Nat) (node : Node) : Except GraphError (Arena × Nat) :=
  if node.nested.isSome then .error (.unsupportedElement .nestedNode)
  else do
    let state ← arena.state id place
    return (arena.modifyState id place (·.pushNode node), state.nodes.length)

/-- Add a node that owns the graph of a document. -/
def pushNestedNode (id place : Nat) (fields : Fields) (document : Json) :
    Except GraphError (Arena × Nat) := do
  let state ← arena.state id place
  let inner ← Part.nested.fields document
  let next := arena.graphs.length
  let block ← Subgraph.decode next (some ⟨id, place, state.nodes.length⟩) inner
  let grown := (Arena.mk (arena.graphs ++ block)).modifyState id place
    (·.pushNode ⟨some next, fields⟩)
  return (grown.renumber, state.nodes.length)

def connectNodes (id place source target : Nat) (fields : Fields) :
    Except GraphError (Arena × Nat) := do
  let state ← arena.state id place
  let bound := state.nodes.length
  if source < bound ∧ target < bound then
    return (arena.modifyState id place (·.pushEdge ⟨source, target, fields⟩), state.edges.length)
  else .error (.invalidGraph (.nodesOutside source target bound))

def connectStates (id source target : Nat) (fields : Fields) :
    Except GraphError (Arena × Nat) := do
  let graph ← arena.graph id
  let bound := graph.states.length
  if source < bound ∧ target < bound then
    return (arena.modifyGraph id (·.pushEdge ⟨source, target, fields⟩), graph.edges.length)
  else .error (.invalidGraph (.statesOutside source target bound))

/-- The graphs that the nodes of a state own go with it. -/
def eraseState (id place : Nat) : Except GraphError Arena := do
  let _ ← arena.state id place
  return (arena.modifyGraph id (·.eraseState place)).renumber

/-- The graph that a node owns goes with it. -/
def eraseNode (location : Location) : Except GraphError Arena := do
  let _ ← arena.node location
  return (arena.modifyState location.graph location.state (·.eraseNode location.node)).renumber

/-- Remove an element. A graph is removed with the node that owns it, so the root stays. -/
def erase : Element → Except GraphError Arena
  | .graph id => do
    let _ ← arena.graph id
    match arena.recordedOwner id with
    | some owner => arena.eraseNode owner
    | none => .error (.unsupportedElement .rootRemoval)
  | .state id place => arena.eraseState id place
  | .node id place index => arena.eraseNode ⟨id, place, index⟩
  | .edge id (some place) index => do
    let state ← arena.state id place
    if index < state.edges.length then
      return arena.modifyState id place (·.eraseEdge index)
    else .error (.edgeOutOfRange (.state id place) (signedWord index))
  | .edge id none index => do
    let graph ← arena.graph id
    if index < graph.edges.length then
      return arena.modifyGraph id (·.eraseEdge index)
    else .error (.edgeOutOfRange (.graph id) (signedWord index))

end Arena

/-! ## Instrumentation

A graph is compiled for measuring or not. Switching the measuring off sets one attribute on every
graph, state and node of an arena.
-/

def Fields.uninstrumented (fields : Fields) : Fields :=
  fields.modifyAttributes fun attributes =>
    Fields.put attributes "instrument" (.str "No_Instrumentation")

def Node.uninstrumented (node : Node) : Node :=
  { node with fields := node.fields.uninstrumented }

def State.uninstrumented (state : State) : State :=
  { state with nodes := state.nodes.map Node.uninstrumented,
               fields := state.fields.uninstrumented }

def Subgraph.uninstrumented (graph : Subgraph) : Subgraph :=
  { graph with states := graph.states.map State.uninstrumented,
               fields := graph.fields.uninstrumented }

/-- The arena with nothing measured. -/
def Arena.uninstrumented (arena : Arena) : Arena :=
  ⟨arena.graphs.map Subgraph.uninstrumented⟩

/-! ## Edits as values -/

/-- What an arena may be asked to change. -/
inductive Edit where
  | pushState (graph : Nat) (fields : Fields)
  | pushNode (graph state : Nat) (node : Node)
  | pushNestedNode (graph state : Nat) (fields : Fields) (document : Json)
  | connectNodes (graph state source target : Nat) (fields : Fields)
  | connectStates (graph source target : Nat) (fields : Fields)
  | erase (element : Element)
  | uninstrument
deriving DecidableEq, Inhabited

/-- The outcome of an edit that adds an element. -/
def Edit.placed : Arena × Nat → Arena × Option Nat
  | (arena, place) => (arena, some place)

namespace Arena

/-- Carry out an edit. One that adds an element gives the place of it as well. -/
def edit (arena : Arena) : Edit → Except GraphError (Arena × Option Nat)
  | .pushState id fields => (arena.pushState id fields).map Edit.placed
  | .pushNode id place node => (arena.pushNode id place node).map Edit.placed
  | .pushNestedNode id place fields document =>
    (arena.pushNestedNode id place fields document).map Edit.placed
  | .connectNodes id place source target fields =>
    (arena.connectNodes id place source target fields).map Edit.placed
  | .connectStates id source target fields =>
    (arena.connectStates id source target fields).map Edit.placed
  | .erase element => (arena.erase element).map (·, none)
  | .uninstrument => .ok (arena.uninstrumented, none)

/-- The arena after an edit. One that fails leaves everything as it was. -/
def afterEdit (arena : Arena) (edit : Edit) : Arena :=
  match arena.edit edit with
  | .ok (arena, _) => arena
  | .error _ => arena

/-- The arena after edits in turn. -/
def afterEdits (arena : Arena) (edits : List Edit) : Arena :=
  edits.foldl afterEdit arena

end Arena

end DataflowEditor
