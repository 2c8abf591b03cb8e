import DataflowEditor.Graph.Encode
import DataflowEditor.Graph.Selection
import DataflowEditor.Text.Integer
import DataflowEditor.Toolkit.Dialogue

/-! # Transformations

What may be transformed is known to the toolkit alone. The daemon decodes the graph of the request,
asks with the graph as it encodes it, and checks what it can check itself: that a transformation has
a class and names a graph that exists, and that a node to be expanded looks like a library node. A
transformation that comes after another is checked against the graph that the toolkit returned.
-/

namespace DataflowEditor

def listFailedMessage : String :=
  "Failed to load transformations"

def applyFailedMessage : String :=
  "Failed to apply the transformation to the SDFG"

def transformationFailedMessage : String :=
  "Failed to parse the applied transformation"

def expandFailedMessage : String :=
  "Failed to expand library node"

def specializeFailedMessage : String :=
  "Failed to specialize the SDFG"

def loadFailedMessage : String :=
  "Failed to load custom transformation(s)"

/-- The members of an answer that brings a graph. -/
def graphAnswer (graph : Json) : Json :=
  .obj [("sdfg", graph)]

/-! ## Listing -/

structure ListingRequest where
  graph : Json
  /-- Descriptors of the selected elements. -/
  selected : List Json
  /-- Allow matches that only hold under relaxed checks. -/
  permissive : Bool
deriving DecidableEq, Inhabited

def ListingRequest.shape : RecordShape ListingRequest where
  name := "struct TransformationsRequest"
  blank := ⟨.null, [], false⟩
  fields := [
    .needed "sdfg" Draft.json fun request graph => { request with graph },
    .defaulted "selected_elements" (Draft.list Draft.json) fun request selected =>
      { request with selected },
    .defaulted "permissive" Draft.boolean fun request permissive => { request with permissive }]

/-- The transformations that apply, with a warning if the selection was left aside. -/
structure Listing where
  found : Findings
  warning : Option String
deriving DecidableEq, Inhabited

def Listing.toJson (listing : Listing) : Json :=
  .obj (listing.found.toFields.append? "warnings" (listing.warning.map .str))

/-- The warning for a selection that touches several graphs. -/
def severalGraphsWarning : String :=
  "More than one SDFG selected, ignoring subgraph"

/-- All transformations that apply somewhere, and those that apply to the selection as a whole if it
forms a subgraph. -/
def ListingRequest.run (request : ListingRequest) (options : WriteOptions) :
    Operation Listing := do
  let arena ← Operation.ofAttempt (readPayloadOrText request.graph)
  let selection ← Operation.onGraph (Selection.ofDescriptors arena request.selected)
    listFailedMessage
  let found ← Operation.ask (.findMatches arena.toJson request.permissive options)
    listFailedMessage
  if selection.touchesSeveral then return ⟨found, some severalGraphsWarning⟩
  else match selection.askable with
    | none => return ⟨found, none⟩
    | some subgraph =>
      let more ← Operation.ask (.findForSubgraph arena.toJson subgraph options)
        listFailedMessage
      return ⟨found.extend more, none⟩

/-! ## Applying -/

/-- The number in a transformation of the graph that it is for, zero where it gives none. -/
def transformationGraph? (fields : Fields) : Option Int :=
  match (fields.value? "sdfg_id").or (fields.value? "cfg_id") with
  | none => some 0
  | some value => value.asInt?

/-- The graph that a transformation is for. -/
def targetGraph (transformation : Json) : Except GraphError Nat :=
  match transformation.asObject? with
  | none => .error (.invalidGraph .transformationNotObject)
  | some fields =>
    match (Fields.value? fields "transformation").bind Json.asString? with
    | none => .error (.invalidGraph .transformationUnnamed)
    | some _ =>
      match transformationGraph? fields with
      | none => .error (.invalidGraph .transformationGraph)
      | some id => if 0 ≤ id then .ok id.toNat else .error (.graphNotFound id)

/-- Have one transformation applied to `current`, the document of `arena`. -/
def applyStep (options : WriteOptions) (arena : Arena) (current transformation : Json)
    (message : String) : Operation Json := do
  let target ← Operation.onGraph (targetGraph transformation) transformationFailedMessage
  let _ ← Operation.onGraph (arena.graph target) message
  Operation.ask (.apply current transformation options) message

structure ApplicationRequest where
  graph : Json
  transformation : Json
deriving DecidableEq, Inhabited

def ApplicationRequest.shape : RecordShape ApplicationRequest where
  name := "struct ApplyTransformationRequest"
  blank := ⟨.null, .null⟩
  fields := [
    .needed "sdfg" Draft.json fun request graph => { request with graph },
    .needed "transformation" Draft.json fun request transformation =>
      { request with transformation }]

def ApplicationRequest.run (request : ApplicationRequest) (options : WriteOptions) :
    Operation Json := do
  let arena ← Operation.ofAttempt (readPayloadOrText request.graph)
  applyStep options arena arena.toJson request.transformation applyFailedMessage

structure BatchRequest where
  graph : Json
  transformations : List Json
  /-- Taken, but applying does not look for matches again. -/
  permissive : Bool
deriving DecidableEq, Inhabited

def BatchRequest.shape : RecordShape BatchRequest where
  name := "struct ApplyTransformationsRequest"
  blank := ⟨.null, [], false⟩
  fields := [
    .needed "sdfg" Draft.json fun request graph => { request with graph },
    .needed "transformations" (Draft.list Draft.json) fun request transformations =>
      { request with transformations },
    .defaulted "permissive" Draft.boolean fun request permissive => { request with permissive }]

/-- The message for a failure at a place of a batch, counted from one. -/
def batchMessage (position : Nat) : String :=
  applyFailedMessage ++ ", failed at " ++ Text.ordinal position ++ " transformation"

/-- Apply transformations from a place on. Between two of them the graph that came back is
decoded. -/
def applyFrom (options : WriteOptions) (arena : Arena) (current : Json) (position : Nat) :
    List Json → Operation Json
  | [] => return current
  | [transformation] => applyStep options arena current transformation (batchMessage position)
  | transformation :: next :: rest => do
    let current ← applyStep options arena current transformation (batchMessage position)
    let arena ← Operation.onGraph (Arena.ofJson current) (batchMessage position)
    applyFrom options arena current (position + 1) (next :: rest)

/-- Apply several transformations in turn. The first failure ends the batch. -/
def BatchRequest.run (request : BatchRequest) (options : WriteOptions) : Operation Json := do
  let arena ← Operation.ofAttempt (readPayloadOrText request.graph)
  applyFrom options arena arena.toJson 1 request.transformations

/-! ## Expanding -/

structure ExpansionRequest where
  graph : Option Json
  /-- The node to expand; without one all library nodes are expanded. -/
  node : Option Location
deriving DecidableEq, Inhabited

def ExpansionRequest.shape : RecordShape ExpansionRequest where
  name := "struct ExpandLibraryNodeRequest"
  blank := ⟨none, none⟩
  fields := [
    .defaulted "sdfg" (Draft.optional Draft.json) fun request graph => { request with graph },
    .defaulted "nodeid" (Draft.optional Location.decode) fun request node =>
      { request with node }]

/-- Whether a node looks like a library node. The toolkit has the last word. -/
def Node.isLibrary (node : Node) : Bool :=
  node.kind = "LibraryNode" || node.fields.has "classpath"

/-- The numbers of a request go through an address, so that a number too large for one may come to
name something other than a node. -/
def checkLibraryNode (arena : Arena) (location : Location) : Attempt Unit := do
  let located ← (arena.locate (Element.ofLocation location).address).mapError
    (.ofGraphError expandFailedMessage)
  match located.element with
  | .node id place index =>
    let node ← (arena.node ⟨id, place, index⟩).mapError (.ofGraphError expandFailedMessage)
    if node.isLibrary then return ()
    else .error ⟨expandFailedMessage, "The provided node is not a valid library node"⟩
  | _ => .error ⟨expandFailedMessage, "The provided node is not a valid library node"⟩

def ExpansionRequest.run (request : ExpansionRequest) (options : WriteOptions) :
    Operation Json := do
  match request.graph with
  | none => throw ⟨expandFailedMessage, "No SDFG provided"⟩
  | some graph =>
    let arena ← Operation.ofAttempt (readPayloadOrText graph)
    match request.node with
    | some location => Operation.ofAttempt (checkLibraryNode arena location)
    | none => pure ()
    Operation.ask (.expand arena.toJson request.node options) expandFailedMessage

/-! ## Specializing -/

structure SymbolRequest where
  graph : Json
  /-- Values of symbols; null leaves a symbol as it is. -/
  symbols : Option Fields
deriving DecidableEq, Inhabited

def SymbolRequest.shape : RecordShape SymbolRequest where
  name := "struct SpecializeRequest"
  blank := ⟨.null, none⟩
  fields := [
    .needed "sdfg" Draft.json fun request graph => { request with graph },
    .defaulted "symbol_map" (Draft.optional (Draft.mapping Draft.json)) fun request symbols =>
      { request with symbols }]

def SymbolRequest.run (request : SymbolRequest) (options : WriteOptions) : Operation Json := do
  let arena ← Operation.ofAttempt (readPayloadOrText request.graph)
  let symbols := (request.symbols.getD []).filter fun entry => !entry.2.isNull
  Operation.ask (.specialize arena.toJson symbols options) specializeFailedMessage

/-! ## Loading -/

structure LoadRequest where
  paths : List String
deriving DecidableEq, Inhabited

def LoadRequest.shape : RecordShape LoadRequest where
  name := "struct AddTransformationsRequest"
  blank := ⟨[]⟩
  fields := [
    .defaulted "paths" (Draft.list (Draft.textAs "path string")) fun _ paths => ⟨paths⟩]

/-- Load modules of the user. Without paths there is nothing to ask. -/
def LoadRequest.run (request : LoadRequest) : Operation Unit := do
  if request.paths.isEmpty then return ()
  else Operation.ask (.load request.paths) loadFailedMessage

end DataflowEditor
