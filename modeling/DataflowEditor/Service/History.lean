import DataflowEditor.Service.Transformation

/-! # History

A graph may carry the graph it came from and the transformations that were applied to it since. Its
history is played back by applying them again, from the first up to one that is named by its place.
-/

namespace DataflowEditor

def replayFailedMessage : String :=
  "Failed to play back the transformation history"

structure ReplayRequest where
  graph : Json
  /-- The place of the last transformation to apply. -/
  index : Nat
deriving DecidableEq, Inhabited

def ReplayRequest.shape : RecordShape ReplayRequest where
  name := "struct ReapplyHistoryRequest"
  blank := ⟨.null, 0⟩
  fields := [
    .needed "sdfg" Draft.json fun request graph => { request with graph },
    .needed "index" Draft.index fun request index => { request with index }]

/-- The message for a failure at a point of the history, counted from one. -/
def replayMessage (position : Nat) : String :=
  replayFailedMessage ++ ", failed at " ++ Text.ordinal position ++ " history point"

/-- The graph that a graph came from. Null is none. -/
def Subgraph.ancestor? (graph : Subgraph) : Option Json :=
  ((graph.attributes?.getD []).value? "orig_sdfg").filter fun value => !value.isNull

/-- The transformations that were applied since. -/
def Subgraph.history (graph : Subgraph) : List Json :=
  (((graph.attributes?.getD []).value? "transformation_hist").bind Json.asArray?).getD []

/-- An ancestor as an arena; it may be kept as a text. -/
def decodeAncestor : Json → Except GraphError Arena
  | .str text =>
    match Json.ofText? text with
    | some document => Arena.ofJson document
    | none => .error .unreadable
  | document => Arena.ofJson document

/-- The graph after so many entries of the history. Behind the first entry, the graph that came back
is decoded before the next is applied to it. -/
def replayed (options : WriteOptions) (ancestor : Arena) (history : List Json) :
    Nat → Operation Json
  | 0 => return ancestor.toJson
  | count + 1 => do
    let current ← replayed options ancestor history count
    let arena ←
      if count = 0 then pure ancestor
      else Operation.onGraph (Arena.ofJson current) (replayMessage count)
    applyStep options arena current (history.getD count .null) (replayMessage (count + 1))

def ReplayRequest.run (request : ReplayRequest) (options : WriteOptions) : Operation Json := do
  let arena ← Operation.ofAttempt (readPayloadOrText request.graph)
  match arena.root.ancestor? with
  | none => throw ⟨replayFailedMessage, "No original SDFG recorded"⟩
  | some document =>
    let history := arena.root.history
    if history.length ≤ request.index then
      throw ⟨replayFailedMessage, "IndexError: History index " ++ Text.decimal request.index ++
        " out of range for " ++ Text.decimal history.length ++ " entries"⟩
    else
      let ancestor ← Operation.onGraph (decodeAncestor document) replayFailedMessage
      replayed options ancestor history (request.index + 1)

end DataflowEditor
