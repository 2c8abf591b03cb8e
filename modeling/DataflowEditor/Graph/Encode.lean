import DataflowEditor.Graph.Basic

/-! # Encoding graphs

An arena is written back as one nested document. Every graph, state and node is given the number of
its place, edges name their ends as text, and the table of scopes of a state is made anew from its
nodes. All other fields are written as they are.
-/

namespace DataflowEditor

namespace Edge

def encode (edge : Edge) : Json :=
  .obj ((edge.fields.put "src" (.str (Text.decimal edge.source))).put "dst"
    (.str (Text.decimal edge.target)))

def encodeAll (edges : List Edge) : Json :=
  .arr (edges.map encode)

end Edge

namespace State

/-- List a node under the place of its scope, the places in ascending order. -/
def addToScope (scope : Int) (node : Nat) : List (Int × List Nat) → List (Int × List Nat)
  | [] => [(scope, [node])]
  | (other, members) :: rest =>
    if scope = other then (other, members ++ [node]) :: rest
    else if scope < other then (scope, [node]) :: (other, members) :: rest
    else (other, members) :: addToScope scope node rest

/-- The scope that a node lies in: the place of the entry node, or -1 at the top. -/
def scopeOf (node : Node) : Int :=
  match (node.fields.value? "scope_entry").bind Json.asIndex? with
  | some entry => signedWord entry
  | none => -1

def scopesFrom (scopes : List (Int × List Nat)) : Nat → List Node → List (Int × List Nat)
  | _, [] => scopes
  | place, node :: rest => scopesFrom (addToScope (scopeOf node) place scopes) (place + 1) rest

/-- The scopes of a state and the nodes directly inside each. -/
def scopes (state : State) : List (Int × List Nat) :=
  scopesFrom [] 0 state.nodes

def scopeTable (state : State) : Json :=
  .obj (state.scopes.map fun (scope, nodes) =>
    (Text.decimalInt scope, .arr (nodes.map Json.nat)))

end State

/-- Write a node of a given place; `nested` writes the graph it owns. -/
def Node.encode (nested : Nat → Json) (place : Nat) (node : Node) : Json :=
  let fields := node.fields.put "id" (.nat place)
  match node.nested with
  | none => .obj fields
  | some id =>
    .obj (fields.modifyAttributes fun attributes => Fields.put attributes "sdfg" (nested id))

/-- The fields with the place of the state, and with its scopes where it lists any. -/
def State.numbered (place : Nat) (state : State) : Fields :=
  let fields := state.fields.put "id" (.nat place)
  if fields.has "scope_dict" then fields.put "scope_dict" state.scopeTable else fields

/-- Write a state of a given place. -/
def State.encode (nested : Nat → Json) (place : Nat) (state : State) : Json :=
  let nodes := .arr (state.nodes.mapIdx fun place node => node.encode nested place)
  .obj (((state.numbered place).put "nodes" nodes).put "edges" (Edge.encodeAll state.edges))

namespace Subgraph

/-- The fields with every member that numbers the graph renewed, and one at least. -/
def numbered (id : Nat) (fields : Fields) : Fields :=
  let renew (fields : Fields) (key : String) : Fields :=
    if fields.has key then fields.put key (.nat id) else fields
  if fields.has "sdfg_list_id" || fields.has "cfg_list_id" then
    renew (renew fields "sdfg_list_id") "cfg_list_id"
  else fields.put "sdfg_list_id" (.nat id)

def encode (nested : Nat → Json) (id : Nat) (graph : Subgraph) : Json :=
  let states := .arr (graph.states.mapIdx fun place state => state.encode nested place)
  .obj (((numbered id graph.fields).put "nodes" states).put "edges" (Edge.encodeAll graph.edges))

end Subgraph

namespace Arena

/-- Write a graph and those nested in it, to a given depth of nesting. -/
def encodeWithin (arena : Arena) : Nat → Nat → Json
  | 0, _ => .null
  | fuel + 1, id =>
    match arena.graphs[id]? with
    | some graph => graph.encode (arena.encodeWithin fuel) id
    | none => .null

/-- The document of an arena. No graph is nested deeper than there are graphs. -/
def toJson (arena : Arena) : Json :=
  arena.encodeWithin arena.graphs.length 0

end Arena

end DataflowEditor
