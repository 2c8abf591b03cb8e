import DataflowEditor.Json.Depth
import DataflowEditor.Proofs.Graph.RoundTrip

/-! # Switching the measuring off

Nothing is nested in an arena: the measuring is switched off graph by graph, state by state and node
by node. On the document of the arena this comes to a rewrite that descends from every node that
owns a graph into the document of that graph. The attribute is set beside the nested document, which
lies among the attributes of its owner, and neither disturbs the other.
-/

namespace DataflowEditor

/-! ## The rewrite of a document -/

namespace Json

/-- Change a member of an object, if it is there. -/
def revise (key : String) (change : Json → Json) : Json → Json
  | .obj fields => match Fields.value? fields key with
    | some value => .obj (Fields.put fields key (change value))
    | none => .obj fields
  | document => document

/-- Change the items of an array by their places. -/
def reviseItems (change : Nat → Json → Json) : Json → Json
  | .arr items => .arr (items.mapIdx change)
  | document => document

/-- Mark an element as not measured. Attributes that are no object give way to one. -/
def marked : Json → Json
  | .obj fields =>
    let attributes := match Fields.value? fields "attributes" with
      | some (.obj attributes) => attributes
      | _ => []
    .obj (Fields.put fields "attributes"
      (.obj (Fields.put attributes "instrument" (.str "No_Instrumentation"))))
  | document => document

/-- Mark a container and change what is listed in it. -/
def markedWith (part : Nat → Json → Json) (container : Json) : Json :=
  (container.revise "nodes" (reviseItems part)).marked

/-- Mark a node and change the graph nested in it, if it owns one. -/
def markedNode (nested : Option (Json → Json)) (node : Json) : Json :=
  match nested with
  | none => node.marked
  | some change => (node.revise "attributes" (revise "sdfg" change)).marked

/-- Mark a graph, its states and their nodes, and the graphs nested in it to a given depth. Which
nodes own a graph, and what that graph goes by, is told by what the graph around them goes by, by
the places of the state and the node, and by the node itself. -/
def markedWithin {γ : Type} (owned : γ → Nat → Nat → Json → Option γ) : Nat → γ → Json → Json
  | 0, _, document => document
  | fuel + 1, graph, document =>
    document.markedWith fun place state => state.markedWith fun index node =>
      node.markedNode ((owned graph place index node).map (markedWithin owned fuel))

/-- Mark everything in the document of a graph. Nodes own a graph if their type says so. -/
def markedThroughout (document : Json) : Json :=
  markedWithin (fun _ _ _ node =>
    if node.member? "type" = some (.str "NestedSDFG") then some () else none)
    (document.depth + 1) () document

end Json

namespace Arena

/-- The graph that is nested at a location. -/
def nestedAt? (arena : Arena) (location : Location) : Option Nat :=
  (arena.node location).toOption.bind Node.nested

/-- The document of an arena with everything in it marked, descending into the graphs that the nodes
of the arena own. -/
def markedDocument (arena : Arena) : Json :=
  Json.markedWithin (fun id place index _ => arena.nestedAt? ⟨id, place, index⟩)
    (arena.toJson.depth + 1) 0 arena.toJson

end Arena

/-! ## Members -/

namespace Fields

variable {fields : Fields}

/-- The attributes, empty where they are no object. -/
def attributes (fields : Fields) : Fields :=
  ((fields.value? "attributes").bind Json.asObject?).getD []

theorem marked_obj : Json.marked (.obj fields) = .obj fields.uninstrumented := by
  rw [Json.marked, uninstrumented, modifyAttributes]
  cases fields.value? "attributes" with
  | none => rfl
  | some value => cases value <;> rfl

/-- Only the attributes differ: they name no instrumentation, whether they were an object or not. -/
theorem values_uninstrumented (key : String) : fields.uninstrumented.values key =
    if key = "attributes" then
      [.obj (fields.attributes.put "instrument" (.str "No_Instrumentation"))]
    else fields.values key :=
  values_put _ _ _ _

theorem value?_uninstrumented {key : String} (h : key ≠ "attributes") :
    fields.uninstrumented.value? key = fields.value? key :=
  value?_modifyAttributes_of_ne _ h

theorem attributes_put_of_ne {key : String} {value : Json} (h : key ≠ "attributes") :
    (fields.put key value).attributes = fields.attributes := by
  rw [attributes, value?_put_of_ne _ _ _ _ h.symm, attributes]

theorem attributes_put_self {attributes : Fields} :
    (fields.put "attributes" (.obj attributes)).attributes = attributes := by
  rw [Fields.attributes, value?_put_self]
  rfl

/-- The attributes keep every member but the instrumentation. -/
theorem attributes_uninstrumented : fields.uninstrumented.attributes =
    fields.attributes.put "instrument" (.str "No_Instrumentation") :=
  attributes_put_self

theorem uninstrumented_uninstrumented :
    fields.uninstrumented.uninstrumented = fields.uninstrumented := by
  simp only [uninstrumented, modifyAttributes_modifyAttributes, put_put_self]

/-- The mark is set, and nothing else differs. -/
structure MarkedAs (before after : Fields) : Prop where
  object : after.values "attributes" = [.obj after.attributes]
  mark : after.attributes.values "instrument" = [.str "No_Instrumentation"]
  attributes : ∀ key, key ≠ "instrument" →
    after.attributes.values key = before.attributes.values key
  others : ∀ key, key ≠ "attributes" → after.values key = before.values key

/-- The record is marked as uninstrumented, and in nothing else. -/
theorem markedAs_uninstrumented (fields : Fields) : fields.MarkedAs fields.uninstrumented where
  object := by rw [values_uninstrumented, if_pos rfl, attributes_uninstrumented]
  mark := by rw [attributes_uninstrumented, values_put, if_pos rfl]
  attributes key h := by rw [attributes_uninstrumented, values_put, if_neg h]
  others key h := by rw [values_uninstrumented, if_neg h]

end Fields

theorem Node.written_eq (place : Nat) (document : Json) (fields : Fields) :
    written place document fields = (fields.put "id" (.nat place)).put "attributes"
      (.obj (fields.attributes.put "sdfg" document)) := by
  rw [← Fields.attributes_put_of_ne (show "id" ≠ "attributes" by decide)]
  rfl

/-- A node is written with its own members, its id and its attributes apart. -/
theorem Node.member?_encode {key : String} (hid : key ≠ "id") (hattributes : key ≠ "attributes")
    (document : Nat → Json) (place : Nat) (node : Node) :
    (node.encode document place).member? key = node.fields.value? key := by
  cases hnested : node.nested with
  | none =>
      rw [encode_of_none hnested, Json.member?, Json.asObject?, Option.bind_some,
        Fields.value?_put_of_ne _ _ _ _ hid]
  | some id =>
      rw [encode_of_some hnested, written_eq, Json.member?, Json.asObject?, Option.bind_some,
        Fields.value?_put_of_ne _ _ _ _ hattributes, Fields.value?_put_of_ne _ _ _ _ hid]

/-! ## One level of the rewrite -/

namespace Json

/-- Changing the items and writing them is writing them and changing the documents, if each item
agrees. -/
theorem same_items {α β : Type} {items : List α} {change : α → β} {first : Nat → β → Json}
    {second : Nat → α → Json} {part : Nat → Json → Json}
    (h : ∀ index item, items[index]? = some item →
      Same (first index (change item)) (part index (second index item))) :
    Same (.arr ((items.map change).mapIdx first)) (.arr ((items.mapIdx second).mapIdx part)) := by
  refine Same.arr (List.ext_getElem? fun index => ?_)
  simp only [List.getElem?_map, List.getElem?_mapIdx, Option.map_map]
  cases hitem : items[index]? with
  | none => rfl
  | some item => exact congrArg some (h index item hitem)

/-- The members that are written last are not among those that the mark is set in. -/
theorem same_markedWith {fields again : Fields} {items changed : List Json} {edges : Json}
    {part : Nat → Json → Json}
    (hfields : ∀ key, again.values key = fields.uninstrumented.values key)
    (hitems : Same (.arr changed) (.arr (items.mapIdx part))) :
    Same (.obj ((again.put "nodes" (.arr changed)).put "edges" edges))
      (markedWith part (.obj ((fields.put "nodes" (.arr items)).put "edges" edges))) := by
  have hlisted : Fields.value? ((fields.put "nodes" (.arr items)).put "edges" edges) "nodes" =
      some (.arr items) := by
    rw [Fields.value?_put_of_ne _ _ _ _ (by decide), Fields.value?_put_self]
  simp only [markedWith, revise, hlisted, reviseItems, Fields.marked_obj]
  refine .obj fun key => ?_
  simp only [Fields.values_put, hfields, Fields.values_uninstrumented]
  by_cases hattributes : key = "attributes"
  · subst hattributes
    simp [Fields.attributes_put_of_ne]
  · by_cases hnodes : key = "nodes"
    · subst hnodes
      simpa using (show _ = _ from hitems)
    · simp [hattributes, hnodes]

/-- For a node without a graph, marking its document is marking the node. -/
theorem same_marked_node (fields : Fields) (place : Nat) :
    Same (.obj (fields.uninstrumented.put "id" (.nat place)))
      (markedNode none (.obj (fields.put "id" (.nat place)))) := by
  simp only [markedNode, Fields.marked_obj]
  refine .obj fun key => ?_
  simp only [Fields.values_put, Fields.values_uninstrumented]
  by_cases hattributes : key = "attributes"
  · subst hattributes
    simp [Fields.attributes_put_of_ne]
  · simp [hattributes]

/-- The mark and the nested document are different attributes of an owner. -/
theorem same_marked_owner {fields : Fields} {document nested : Json} {change : Json → Json}
    (h : Same document (change nested)) (place : Nat) :
    Same (.obj (Node.written place document fields.uninstrumented))
      (markedNode (some change) (.obj (Node.written place nested fields))) := by
  simp only [Node.written_eq, markedNode, revise, Fields.value?_put_self, Fields.put_put_self,
    Fields.marked_obj, Fields.attributes_uninstrumented]
  refine .obj fun key => ?_
  simp only [Fields.values_put, Fields.values_uninstrumented, Fields.attributes_put_self]
  by_cases hattributes : key = "attributes"
  · simp only [hattributes, if_true, List.map_cons, List.map_nil]
    refine congrArg (fun document => [document]) (Same.obj fun name => ?_)
    simp only [Fields.values_put]
    by_cases hnested : name = "sdfg"
    · subst hnested
      exact congrArg (fun document => [document]) h
    · simp [hnested]
  · simp [hattributes]

end Json

/-! ## Numbers and scopes -/

theorem Fields.has_uninstrumented {fields : Fields} {key : String} (h : key ≠ "attributes") :
    fields.uninstrumented.has key = fields.has key := by
  rw [has_eq_of_values, values_uninstrumented, if_neg h, has_eq_of_values]

/-- Numbering a graph and taking its instrumentation away may be done in either order. -/
theorem Subgraph.values_numbered_uninstrumented (id : Nat) (fields : Fields) (key : String) :
    (numbered id fields.uninstrumented).values key =
      Fields.values (Fields.uninstrumented (numbered id fields)) key := by
  have hkept : Fields.attributes (numbered id fields) = fields.attributes := by
    rw [Fields.attributes, value?_numbered_of_ne (by decide) (by decide), Fields.attributes]
  rw [Fields.values_uninstrumented, hkept]
  by_cases hlist : key = "sdfg_list_id"
  · subst hlist
    simp [values_numbered_list, Fields.has_uninstrumented]
  by_cases hconfig : key = "cfg_list_id"
  · subst hconfig
    simp [values_numbered_config, Fields.has_uninstrumented]
  · rw [values_numbered_of_ne hlist hconfig, values_numbered_of_ne hlist hconfig]
    exact Fields.values_uninstrumented key

namespace State

theorem scopeTable_uninstrumented (state : State) :
    state.uninstrumented.scopeTable = state.scopeTable := by
  have hscope : ∀ node : Node, scopeOf node.uninstrumented = scopeOf node := fun node => by
    rw [scopeOf, Node.uninstrumented, Fields.value?_uninstrumented (by decide), scopeOf]
  have hscopes : state.uninstrumented.scopes = state.scopes :=
    scopesFrom_congr (by simp [uninstrumented, hscope]) [] 0
  rw [scopeTable, scopeTable, hscopes]

/-- Numbering a state and taking its instrumentation away may be done in either order. -/
theorem values_numbered_uninstrumented (place : Nat) (state : State) (key : String) :
    (state.uninstrumented.numbered place).values key =
      Fields.values (Fields.uninstrumented (state.numbered place)) key := by
  have hkept : Fields.attributes (state.numbered place) = state.fields.attributes := by
    simp only [Fields.attributes, Fields.value?_eq_head?,
      values_numbered_of_ne (show "attributes" ≠ "id" by decide) (by decide)]
  rw [Fields.values_uninstrumented, hkept]
  by_cases hid : key = "id"
  · subst hid
    simp [values_numbered_id]
  by_cases hscopes : key = "scope_dict"
  · subst hscopes
    have hhas : state.uninstrumented.fields.has "scope_dict" = state.fields.has "scope_dict" :=
      Fields.has_uninstrumented (by decide)
    simp [values_numbered_scopes, scopeTable_uninstrumented, hhas]
  · rw [values_numbered_of_ne hid hscopes, values_numbered_of_ne hid hscopes]
    exact Fields.values_uninstrumented key

end State

/-! ## How deep a part lies -/

namespace Json

/-- A listed document is nested less deep than the record that lists it. -/
theorem depth_lt_of_listed {α : Type} {fields : Fields} {items : List α} {item : α}
    {index : Nat} {encode : Nat → α → Json} {edges : Json} (h : items[index]? = some item) :
    (encode index item).depth <
      (Json.obj ((fields.put "nodes" (.arr (items.mapIdx encode))).put "edges" edges)).depth := by
  have hlisted : Fields.value? ((fields.put "nodes" (.arr (items.mapIdx encode))).put "edges" edges)
      "nodes" = some (.arr (items.mapIdx encode)) := by
    rw [Fields.value?_put_of_ne _ _ _ _ (by decide), Fields.value?_put_self]
  have hmem : encode index item ∈ items.mapIdx encode :=
    List.mem_of_getElem? (by rw [List.getElem?_mapIdx, h, Option.map_some])
  have hitem := depth_le_of_mem hmem
  have hlist := depth_le_of_value? hlisted
  simp only [depth] at hlist ⊢
  omega

theorem depth_lt_of_written (place : Nat) (document : Json) (fields : Fields) :
    document.depth < (Json.obj (Node.written place document fields)).depth := by
  rw [Node.written_eq]
  have hinner := depth_le_of_value? (Fields.value?_put_self fields.attributes "sdfg" document)
  have houter := depth_le_of_value? (Fields.value?_put_self (fields.put "id" (.nat place))
    "attributes" (.obj (fields.attributes.put "sdfg" document)))
  simp only [depth] at houter ⊢
  omega

end Json

/-! ## The whole rewrite -/

namespace Arena

variable {arena : Arena}

theorem uninstrumented_getElem? (id : Nat) : arena.uninstrumented.graphs[id]? =
    arena.graphs[id]?.map Subgraph.uninstrumented := by
  rw [uninstrumented, List.getElem?_map]

theorem nestedAt?_of_ok {location : Location} {node : Node} (h : arena.node location = .ok node) :
    arena.nestedAt? location = node.nested := by
  rw [nestedAt?, h]
  rfl

/-- The elements, their places and the nesting stay as they are. -/
theorem outline_uninstrumented : arena.uninstrumented.outline = arena.outline := by
  simp [outline, uninstrumented, Subgraph.outline, Subgraph.uninstrumented, State.outline,
    State.uninstrumented, Node.outline, Node.uninstrumented, Function.comp_def]

/-- The document of a graph lies deeper than that of the graph around it. -/
theorem WellFormed.depth_document_lt (h : arena.WellFormed) {location : Location} {node : Node}
    {child : Nat} (hnode : arena.node location = .ok node) (hnested : node.nested = some child) :
    (arena.document child).depth < (arena.document location.graph).depth := by
  obtain ⟨graph, state, hgraph, hstate, hindex⟩ := node_eq_ok.mp hnode
  have hinner : (arena.document child).depth <
      (node.encode arena.document location.node).depth := by
    rw [Node.encode_of_some hnested]
    exact Json.depth_lt_of_written _ _ _
  have hmiddle : (node.encode arena.document location.node).depth <
      (state.encode arena.document location.state).depth := Json.depth_lt_of_listed hindex
  have houter : (state.encode arena.document location.state).depth <
      (arena.document location.graph).depth := by
    rw [h.document_eq hgraph]
    exact Json.depth_lt_of_listed hstate
  omega

/-- Marking the written graph with all that is nested in it is writing the uninstrumented graph,
whatever names the nested graphs are found by. -/
theorem WellFormed.same_markedWithin (h : arena.WellFormed) {γ : Type}
    (owned : γ → Nat → Nat → Json → Option γ) (name : Nat → γ)
    (howned : ∀ {id place index : Nat} {node : Node}, arena.node ⟨id, place, index⟩ = .ok node →
      owned (name id) place index (node.encode arena.document index) = node.nested.map name)
    {fuel id : Nat} (hid : id < arena.graphs.length) (hfuel : (arena.document id).depth < fuel) :
    Json.Same (arena.uninstrumented.document id)
      (Json.markedWithin owned fuel (name id) (arena.document id)) := by
  induction fuel generalizing id with
  | zero => omega
  | succ fuel ih =>
      have hgraph := List.getElem?_eq_getElem hid
      generalize arena.graphs[id] = graph at hgraph
      have hmarked : arena.uninstrumented.graphs[id]? = some graph.uninstrumented := by
        rw [uninstrumented_getElem?, hgraph, Option.map_some]
      rw [h.uninstrumented.document_eq hmarked, Json.markedWithin, h.document_eq hgraph]
      -- Only the step into a nested graph takes fuel. Its states and nodes are taken at once.
      refine Json.same_markedWith (Subgraph.values_numbered_uninstrumented id graph.fields)
        (Json.same_items fun place state hstate => ?_)
      refine Json.same_markedWith (State.values_numbered_uninstrumented place state)
        (Json.same_items fun index node hindex => ?_)
      have hnode : arena.node ⟨id, place, index⟩ = .ok node :=
        node_eq_ok.mpr ⟨graph, state, hgraph, hstate, hindex⟩
      rw [howned hnode]
      cases hnested : node.nested with
      | none =>
          rw [Node.encode_of_none hnested, Node.encode_of_none (by exact hnested)]
          exact Json.same_marked_node node.fields index
      | some child =>
          rw [Node.encode_of_some hnested, Node.encode_of_some (by exact hnested)]
          have hdepth := h.depth_document_lt hnode hnested
          have hlt := (h.lt_of_owns ⟨node, hnode, hnested⟩).2
          exact Json.same_marked_owner (ih hlt (by simp only at hdepth; omega)) index

theorem WellFormed.pos (h : arena.WellFormed) : 0 < arena.graphs.length := by
  obtain ⟨root, hroot, _⟩ := Option.map_eq_some_iff.mp h.root
  exact (List.getElem?_eq_some_iff.mp hroot).1

/-- The rewrite descends where the nodes of the arena own a graph. -/
theorem WellFormed.same_markedDocument (h : arena.WellFormed) :
    Json.Same arena.uninstrumented.toJson arena.markedDocument := by
  rw [markedDocument, toJson_eq_document, toJson_eq_document]
  apply h.same_markedWithin _ (fun id => id) _ h.pos (Nat.lt_succ_self _)
  intro id place index node hnode
  rw [nestedAt?_of_ok hnode, Option.map_id']

/-- Where types fit, the types of nodes tell which of them own a graph. -/
theorem WellFormed.same_markedThroughout (h : arena.WellFormed) (htyped : arena.Typed) :
    Json.Same arena.uninstrumented.toJson arena.toJson.markedThroughout := by
  rw [Json.markedThroughout, toJson_eq_document, toJson_eq_document]
  apply h.same_markedWithin _ (fun _ => ()) _ h.pos (Nat.lt_succ_self _)
  intro id place index node hnode
  obtain ⟨graph, state, hgraph, hstate, hindex⟩ := node_eq_ok.mp hnode
  have hkind : node.nested.isSome ↔ node.kind = "NestedSDFG" :=
    (htyped graph (List.mem_of_getElem? hgraph)).states state (List.mem_of_getElem? hstate) node
      (List.mem_of_getElem? hindex)
  rw [Node.kind, Fields.text_eq_iff (by decide), Fields.bind_asString?_eq_some] at hkind
  rw [Node.member?_encode (by decide) (by decide)]
  cases hnested : node.nested with
  | none =>
      rw [hnested] at hkind
      exact if_neg fun htype => by simpa using hkind.mpr htype
  | some child =>
      rw [hnested] at hkind
      exact if_pos (hkind.mp rfl)

/-! ## What stays -/

/-- On an arena too, a second time changes nothing. -/
theorem uninstrumented_uninstrumented :
    arena.uninstrumented.uninstrumented = arena.uninstrumented := by
  simp [uninstrumented, Subgraph.uninstrumented, State.uninstrumented, Node.uninstrumented,
    Fields.uninstrumented_uninstrumented, Function.comp_def]

/-- The fields of an element. -/
def fields? (arena : Arena) : Element → Option Fields
  | .graph id => arena.graphs[id]?.map Subgraph.fields
  | .state id place => do
    let graph ← arena.graphs[id]?
    let state ← graph.states[place]?
    return state.fields
  | .node id place index => do
    let graph ← arena.graphs[id]?
    let state ← graph.states[place]?
    let node ← state.nodes[index]?
    return node.fields
  | .edge id (some place) index => do
    let graph ← arena.graphs[id]?
    let state ← graph.states[place]?
    let edge ← state.edges[index]?
    return edge.fields
  | .edge id none index => do
    let graph ← arena.graphs[id]?
    let edge ← graph.edges[index]?
    return edge.fields

/-- Edges keep all of their fields. -/
theorem fields?_edge_uninstrumented (id : Nat) (place : Option Nat) (index : Nat) :
    arena.uninstrumented.fields? (.edge id place index) = arena.fields? (.edge id place index) := by
  cases place with
  | none =>
      simp only [fields?, uninstrumented_getElem?]
      cases arena.graphs[id]? <;> rfl
  | some place =>
      simp only [fields?, uninstrumented_getElem?]
      cases arena.graphs[id]? with
      | none => rfl
      | some graph =>
          simp only [Subgraph.uninstrumented, Option.map_some, Option.bind_eq_bind,
            Option.bind_some, List.getElem?_map]
          cases graph.states[place]? <;> rfl

/-- Everything else is marked. -/
theorem fields?_uninstrumented {element : Element}
    (h : ∀ id place index, element ≠ .edge id place index) :
    arena.uninstrumented.fields? element = (arena.fields? element).map Fields.uninstrumented := by
  cases element with
  | graph id =>
      simp only [fields?, uninstrumented_getElem?]
      cases arena.graphs[id]? <;> rfl
  | state id place =>
      simp only [fields?, uninstrumented_getElem?]
      cases arena.graphs[id]? with
      | none => rfl
      | some graph =>
          simp only [Subgraph.uninstrumented, Option.map_some, Option.bind_eq_bind,
            Option.bind_some, List.getElem?_map]
          cases graph.states[place]? <;> rfl
  | node id place index =>
      simp only [fields?, uninstrumented_getElem?]
      cases arena.graphs[id]? with
      | none => rfl
      | some graph =>
          simp only [Subgraph.uninstrumented, Option.map_some, Option.bind_eq_bind,
            Option.bind_some, List.getElem?_map]
          cases graph.states[place]? with
          | none => rfl
          | some state =>
              simp only [State.uninstrumented, Option.map_some, Option.bind_some,
                List.getElem?_map]
              cases state.nodes[index]? <;> rfl
  | edge id place index => exact absurd rfl (h id place index)

/-- All that switching the measuring off does. -/
structure UninstrumentsExactly (arena : Arena) : Prop where
  /-- The document is rewritten, down into the graphs that the nodes of the arena own. -/
  document : Json.Same arena.uninstrumented.toJson arena.markedDocument
  /-- Where types fit, the document itself shows what is to be rewritten. -/
  byKind : arena.Typed → Json.Same arena.uninstrumented.toJson arena.toJson.markedThroughout
  /-- Graphs keep their owners, nodes the graphs nested in them, and edges their ends. -/
  outline : arena.uninstrumented.outline = arena.outline
  elements : arena.uninstrumented.elements = arena.elements
  located : ∀ address, arena.uninstrumented.locate address = arena.locate address
  locatedText : ∀ text, arena.uninstrumented.locateText text = arena.locateText text
  edges : ∀ id place index, arena.uninstrumented.fields? (.edge id place index) =
    arena.fields? (.edge id place index)
  marked : ∀ element, (∀ id place index, element ≠ .edge id place index) →
    ∀ before, arena.fields? element = some before →
      ∃ after, arena.uninstrumented.fields? element = some after ∧ before.MarkedAs after
  twice : arena.uninstrumented.uninstrumented = arena.uninstrumented

/-- On a well-formed arena, taking the instrumentation away does what the specification says, at
every level of nesting. -/
theorem WellFormed.uninstrumentsExactly (h : arena.WellFormed) : arena.UninstrumentsExactly where
  document := h.same_markedDocument
  byKind := h.same_markedThroughout
  outline := outline_uninstrumented
  elements := by rw [← elements_outline, outline_uninstrumented, elements_outline]
  located address := by rw [← locate_outline, outline_uninstrumented, locate_outline]
  locatedText text := by rw [← locateText_outline, outline_uninstrumented, locateText_outline]
  edges := fields?_edge_uninstrumented
  marked element helement before hbefore := by
    rw [fields?_uninstrumented helement, hbefore]
    exact ⟨_, rfl, before.markedAs_uninstrumented⟩
  twice := uninstrumented_uninstrumented

/-- In every arena that edits of a decoded graph lead to, the measuring is switched off everywhere,
and nothing else changes. -/
theorem reachable_uninstrumentsExactly {document : Json} (hdocument : ofJson document = .ok arena)
    (edits : List Edit) : (arena.afterEdits edits).UninstrumentsExactly :=
  ((ofJson_wellFormed hdocument).afterEdits edits).uninstrumentsExactly

/-- A nested graph with an attribute of its own, in a node whose attributes hold another. -/
def measuredDocument : Json :=
  .obj [("nodes", .arr [.obj [("nodes", .arr [
    .obj [("type", .str "NestedSDFG"), ("attributes", .obj [("instrument", .str "Timer"),
      ("sdfg", .obj [("attributes", .obj [("name", .str "inner")]),
        ("nodes", .arr [.obj [("attributes", .nat 0)]])])])]])]])]

def measuredArena : Arena :=
  ⟨[⟨[⟨[⟨some 1, [("type", .str "NestedSDFG"),
      ("attributes", .obj [("instrument", .str "Timer")])]⟩], [], []⟩], [], none, []⟩,
    ⟨[⟨[], [], [("attributes", .nat 0)]⟩], [], some ⟨0, 0, 0⟩,
      [("attributes", .obj [("name", .str "inner")])]⟩]⟩

theorem measuredArena_uninstrumentsExactly : ofJson measuredDocument = .ok measuredArena ∧
    (measuredArena.afterEdits [.pushState 1 []]).UninstrumentsExactly := by
  have hdocument : ofJson measuredDocument = .ok measuredArena := by decide
  exact ⟨hdocument, reachable_uninstrumentsExactly hdocument _⟩

end Arena

end DataflowEditor
