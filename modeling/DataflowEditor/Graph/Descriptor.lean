import DataflowEditor.Graph.Edit
import DataflowEditor.Json.Printer

/-! # Selection descriptors

The editor describes a selected element by a document with its type and its numbers. A descriptor is
read without looking at any graph, so what it names need not exist. A node that lies in no state is
a state itself, drawn as a node.
-/

namespace DataflowEditor.Element

/-- An integer member of a descriptor. -/
def integer? (descriptor : Json) (key : String) : Option Int :=
  (descriptor.member? key).bind Json.asInt?

/-- A number of a descriptor as an index. -/
def descriptorIndex (descriptor : Json) (component : String) (value : Int) :
    Except GraphError Nat :=
  if 0 ≤ value then .ok value.toNat
  else .error (.malformedAddress descriptor.print (.negativeId component))

def required (descriptor : Json) (reason : AddressFault) (value : Option Int) :
    Except GraphError Int :=
  match value with
  | some value => .ok value
  | none => .error (.malformedAddress descriptor.print reason)

/-- The state or node that a descriptor names. -/
def ofDescriptor (descriptor : Json) : Except GraphError Element := do
  let graph ← required descriptor .missingGraphId
    ((integer? descriptor "sdfg_id").or (integer? descriptor "sdfgId"))
  let id ← required descriptor .missingElementId (integer? descriptor "id")
  let state := (integer? descriptor "state_id").getD (-1)
  let graph ← descriptorIndex descriptor "graph" graph
  match (descriptor.member? "type").bind Json.asString? with
  | some "state" => return .state graph (← descriptorIndex descriptor "state" id)
  | some "node" =>
    if 0 ≤ state then return .node graph state.toNat (← descriptorIndex descriptor "node" id)
    else return .state graph (← descriptorIndex descriptor "state" id)
  | other => .error (.unsupportedElement (.selection other))

end DataflowEditor.Element
