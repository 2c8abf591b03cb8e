import DataflowEditor.Graph.Address

/-! # Finding elements by address

An address is located in an arena: the graph is looked for from the root downwards, and the
other components pick elements inside it. An element that is found comes with its container. The
other way round, an element of an arena has an address, and what is no element has none.
-/

namespace DataflowEditor

/-- An element and its container: the state of a node or of an edge between nodes, the graph of a
state or of an edge between states, the owner of a nested graph. Only the root has none. -/
structure Located where
  element : Element
  parent : Option Element
deriving DecidableEq, Inhabited

/-- A signed word read as an index. A negative one becomes an index beyond every element. -/
def unsignedWord (i : Int) : Nat :=
  (i % wordCount).toNat

namespace Arena

variable (arena : Arena)

/-! ## Elements of an arena -/

def contains : Element → Bool
  | .graph id => (arena.graph id).isOk
  | .state id place => (arena.state id place).isOk
  | .node id place index => (arena.node ⟨id, place, index⟩).isOk
  | .edge id (some place) index =>
    match arena.state id place with
    | .ok state => index < state.edges.length
    | .error _ => false
  | .edge id none index =>
    match arena.graph id with
    | .ok graph => index < graph.edges.length
    | .error _ => false

def addressFor (element : Element) : Address :=
  if arena.contains element then element.address else Address.none

/-- All elements: each graph, its states with what lies in them, and its edges. -/
def elements : List Element :=
  arena.graphs.zipIdx.flatMap fun (graph, id) =>
    .graph id :: (graph.states.zipIdx.flatMap fun (state, place) =>
        .state id place ::
          ((List.range state.nodes.length).map (.node id place) ++
            (List.range state.edges.length).map (.edge id (some place)))) ++
      (List.range graph.edges.length).map (.edge id none)

/-! ## Locating -/

/-- The node that owns `target`, looked for below the graph `id`: its nodes are tried in order, and
each nested graph is searched before the next node is tried. -/
def searchOwner (target : Nat) : Nat → Nat → Option Location
  | 0, _ => none
  | fuel + 1, id =>
    match arena.graphs[id]? with
    | none => none
    | some graph =>
      (ownersIn id graph).findSome? fun (nested, location) =>
        if nested = target then some location else searchOwner target fuel nested

/-- The owner of a graph, looked for from the root; none of the root itself. -/
def ownerOf (id : Nat) : Except GraphError (Option Location) :=
  if id = 0 then .ok none
  else match arena.searchOwner id arena.graphs.length 0 with
    | some location => .ok (some location)
    | none => .error (.graphNotFound (signedWord id))

/-- The state that an address names in a graph, if it names one. -/
def locateState (address : Address) (id : Nat) (graph : Subgraph) :
    Except GraphError (Option (Nat × State)) :=
  if address.state = -1 then .ok none
  else match graph.states[unsignedWord address.state]? with
    | some state => .ok (some (unsignedWord address.state, state))
    | none => .error (.stateOutOfRange id address.state)

/-- Pick the element inside a graph that was found, whose owner is given. -/
def locateInside (address : Address) (id : Nat) (graph : Subgraph) (owner : Option Location) :
    Except GraphError Located := do
  let inState ← locateState address id graph
  if address.node ≠ -1 then
    match inState with
    | none => .error (.malformedAddress address.toText .nodeWithoutState)
    | some (place, state) =>
      if unsignedWord address.node < state.nodes.length then
        return ⟨.node id place (unsignedWord address.node), some (.state id place)⟩
      else .error (.nodeOutOfRange id place address.node)
  else if address.edge ≠ -1 then
    match inState with
    | some (place, state) =>
      if unsignedWord address.edge < state.edges.length then
        return ⟨.edge id (some place) (unsignedWord address.edge), some (.state id place)⟩
      else .error (.edgeOutOfRange (.state id place) address.edge)
    | none =>
      if unsignedWord address.edge < graph.edges.length then
        return ⟨.edge id none (unsignedWord address.edge), some (.graph id)⟩
      else .error (.edgeOutOfRange (.graph id) address.edge)
  else
    match inState with
    | some (place, _) => return ⟨.state id place, some (.graph id)⟩
    | none => return ⟨.graph id, owner.map .ofLocation⟩

/-- The element that an address names. Nothing is asked of the address beforehand. -/
def locate (address : Address) : Except GraphError Located :=
  if address.graph < 0 then .error (.graphNotFound address.graph)
  else do
    let owner ← arena.ownerOf (unsignedWord address.graph)
    let graph ← arena.graph (unsignedWord address.graph)
    locateInside address (unsignedWord address.graph) graph owner

def locateText (text : String) : Except GraphError Located := do
  arena.locate (← Address.ofText text)

end Arena

end DataflowEditor
