import DataflowEditor.Envelope
import DataflowEditor.Graph.Encode
import DataflowEditor.Graph.Locate

/-! # Removing elements

A request names elements by their addresses in one graph, so all of them are found before any is
removed, and either all are removed or none. They go in an order in which no removal moves an
element that is still to be removed: the deepest graphs first, and in a graph the edges and nodes of
states before edges between states and states themselves, each from the back.
-/

namespace DataflowEditor

def removeFailedMessage : String :=
  "Failed to delete element"

structure RemovalRequest where
  graph : Json
  addresses : List String
deriving DecidableEq, Inhabited

def RemovalRequest.shape : RecordShape RemovalRequest where
  name := "struct RemoveRequest"
  blank := ⟨.null, []⟩
  fields := [
    .needed "sdfg" Draft.json fun request graph => { request with graph },
    .defaulted "uuids" (Draft.list Draft.string) fun request addresses =>
      { request with addresses }]

namespace Element

/-- The turn of a kind of element within its graph. -/
def removalTurn : Element → Nat
  | .edge _ (some _) _ => 0
  | .node _ _ _ => 1
  | .edge _ none _ => 2
  | .state _ _ => 3
  | .graph _ => 4

/-- The place of an element in its graph: that of its state, then its own. -/
def removalPlace : Element → Nat × Nat
  | .edge _ (some place) index => (place, index)
  | .node _ place index => (place, index)
  | .edge _ none index => (0, index)
  | .state _ place => (place, 0)
  | .graph _ => (0, 0)

/-- Whether an element may be removed before another. -/
def removedBefore (a b : Element) : Bool :=
  if a.graphIndex ≠ b.graphIndex then b.graphIndex < a.graphIndex
  else if a.removalTurn ≠ b.removalTurn then a.removalTurn < b.removalTurn
  else if a.removalPlace.1 ≠ b.removalPlace.1 then b.removalPlace.1 < a.removalPlace.1
  else b.removalPlace.2 ≤ a.removalPlace.2

end Element

namespace Arena

variable (arena : Arena)

/-- What is removed for an address. A graph is removed by its owner. -/
def removalTarget (address : String) : Except GraphError Element := do
  match (← arena.locateText address).element with
  | .graph id =>
    match arena.recordedOwner id with
    | some owner => return .ofLocation owner
    | none => .error (.unsupportedElement .rootRemoval)
  | element => return element

/-- Remove elements in the order given. -/
def removeAll (targets : List Element) : Except GraphError Arena :=
  targets.foldlM Arena.erase arena

/-- Remove what the addresses name, each element once. -/
def removeAddresses (addresses : List String) : Except GraphError Arena := do
  let targets ← addresses.mapM arena.removalTarget
  arena.removeAll (targets.eraseDups.mergeSort Element.removedBefore)

end Arena

/-- Remove elements. -/
def RemovalRequest.run (request : RemovalRequest) : Attempt Json := do
  let arena ← readPayloadOrText request.graph
  let arena ← (arena.removeAddresses request.addresses).mapError
    (.ofGraphError removeFailedMessage)
  return arena.toJson

end DataflowEditor
