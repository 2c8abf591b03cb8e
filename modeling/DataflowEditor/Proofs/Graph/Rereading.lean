import DataflowEditor.Proofs.Graph.Descent
import DataflowEditor.Proofs.Graph.EdgeEnds
import DataflowEditor.Proofs.Json.Fields

/-! # Reading a document that was written

The document of an arena is accepted again if types fit and the ends of edges are words. The arena
read from it is known in advance: every element stands where it stood, and its fields are those that
were written, without the members that the decoder takes out. A graph and those nested in it take up
the same block of indices in both arenas, because both are in depth-first order.
-/

namespace DataflowEditor

/-! ## The arena that is read -/

def Edge.reread (edge : Edge) : Edge :=
  { edge with fields := (edge.fields.without "src").without "dst" }

def Node.reread (place : Nat) (node : Node) : Node :=
  match node.nested with
  | none => ⟨none, node.fields.put "id" (.nat place)⟩
  | some id => ⟨some id, withoutEmbedded (node.fields.put "id" (.nat place))⟩

def State.reread (place : Nat) (state : State) : State where
  nodes := state.nodes.mapIdx Node.reread
  edges := state.edges.map Edge.reread
  fields := ((state.numbered place).without "nodes").without "edges"

def Subgraph.reread (id : Nat) (graph : Subgraph) : Subgraph where
  states := graph.states.mapIdx State.reread
  edges := graph.edges.map Edge.reread
  owner := graph.owner
  fields := ((numbered id graph.fields).without "nodes").without "edges"

/-- The arena that the document of an arena is read as. -/
def Arena.reread (arena : Arena) : Arena :=
  ⟨arena.graphs.mapIdx Subgraph.reread⟩

/-! ## Edges -/

namespace Edge

/-- An edge is decoded from its document as the edge it was, with its ends as texts. -/
theorem decode_encode {bound : Nat} {edge : Edge} (hfits : edge.FitsWord)
    (hsource : edge.source < bound) (htarget : edge.target < bound) (place : Nat)
    (container : Container) : decode place bound container edge.encode = .ok edge.reread := by
  have hsrc : (((edge.fields.put "src" (.str (Text.decimal edge.source))).put "dst"
      (.str (Text.decimal edge.target))).value? "src").bind Json.asIndex? = some edge.source := by
    rw [Fields.value?_put_of_ne _ _ _ _ (by decide), Fields.value?_put_self]
    exact Json.asIndex?_decimal hfits.1
  have hdst : (((edge.fields.put "src" (.str (Text.decimal edge.source))).put "dst"
      (.str (Text.decimal edge.target))).value? "dst").bind Json.asIndex? = some edge.target := by
    rw [Fields.value?_put_self]
    exact Json.asIndex?_decimal hfits.2
  have hfields : (((edge.fields.put "src" (.str (Text.decimal edge.source))).put "dst"
      (.str (Text.decimal edge.target))).without "src").without "dst" =
        (edge.fields.without "src").without "dst" := by
    rw [Fields.without_put_of_ne _ _ _ _ (by decide), Fields.without_put_self,
      Fields.without_put_self]
  simp only [decode, encode, Part.fields, ok_bind, endpoint, hsrc, hdst, hsource, htarget, if_true,
    hfields]
  rfl

theorem decodeAll_encode {bound : Nat} {edges : List Edge} (hfits : ∀ edge ∈ edges, edge.FitsWord)
    (hinside : ∀ edge ∈ edges, edge.source < bound ∧ edge.target < bound) (place : Nat)
    (container : Container) :
    decodeAll bound container place (edges.map encode) = .ok (edges.map reread) := by
  induction edges generalizing place with
  | nil => rfl
  | cons edge rest ih =>
      obtain ⟨⟨hsource, htarget⟩, hrest⟩ := List.forall_mem_cons.mp hinside
      obtain ⟨hedge, hothers⟩ := List.forall_mem_cons.mp hfits
      rw [List.map_cons, decodeAll, decode_encode hedge hsource htarget, ok_bind,
        ih hothers hrest, ok_bind, List.map_cons]
      rfl

end Edge

/-! ## Blocks of consecutive graphs -/

namespace Arena

variable {arena : Arena}

/-- The graphs of an arena from an index on. -/
def block (arena : Arena) (start count : Nat) : List Subgraph :=
  (arena.graphs.drop start).take count

theorem block_append (start front back : Nat) : arena.block start (front + back) =
    arena.block start front ++ arena.block (start + front) back := by
  rw [block, block, block, List.take_add, List.drop_drop]

theorem block_length {start count : Nat} (h : start + count ≤ arena.graphs.length) :
    (arena.block start count).length = count := by
  rw [block, List.length_take, List.length_drop]
  omega

theorem block_succ {start : Nat} {graph : Subgraph} (h : arena.graphs[start]? = some graph)
    (count : Nat) : arena.block start (count + 1) = graph :: arena.block (start + 1) count := by
  obtain ⟨hinside, rfl⟩ := List.getElem?_eq_some_iff.mp h
  rw [block, block, List.drop_eq_getElem_cons hinside, List.take_succ_cons]

theorem block_self : arena.block 0 arena.graphs.length = arena.graphs := by
  rw [block, List.drop_zero, List.take_length]

end Arena

/-! ## Lists of containers -/

section Items

variable (fields : Fields) (part : Part) (nodes edges : List Json)

theorem Part.items_nodes (edges : Json) :
    part.items "nodes" ((fields.put "nodes" (.arr nodes)).put "edges" edges) = .ok nodes := by
  rw [items, Fields.value?_put_of_ne _ _ _ _ (by decide), Fields.value?_put_self]

theorem Part.items_edges : part.items "edges" (fields.put "edges" (.arr edges)) = .ok edges := by
  rw [items, Fields.value?_put_self]

theorem Fields.without_items (nodes edges : Json) :
    (((fields.put "nodes" nodes).put "edges" edges).without "nodes").without "edges" =
      (fields.without "nodes").without "edges" := by
  rw [without_put_of_ne _ _ _ _ (by decide), without_put_self, without_put_self]

end Items

/-! ## Nodes -/

namespace Node

theorem embedded_eq_none {fields : Fields} (h : fields.text "type" ≠ "NestedSDFG") :
    embedded fields = .ok none := by
  rw [Ne, Fields.text_eq_iff (by decide)] at h
  rw [embedded, if_neg h]

theorem embedded_eq_ok {fields inner : Fields} (h : fields.text "type" = "NestedSDFG")
    (hinner : ((fields.value? "attributes").bind Json.asObject?).bind (Fields.value? · "sdfg") =
      some (.obj inner)) : embedded fields = .ok (some inner) := by
  rw [Fields.text_eq_iff (by decide)] at h
  rw [embedded, if_pos h, hinner]
  rfl

/-- The fields that a node is written with, where it owns the graph of a document. -/
def written (place : Nat) (document : Json) (fields : Fields) : Fields :=
  (fields.put "id" (.nat place)).modifyAttributes fun attributes =>
    Fields.put attributes "sdfg" document

theorem encode_of_none {node : Node} (h : node.nested = none) (document : Nat → Json)
    (place : Nat) : node.encode document place = .obj (node.fields.put "id" (.nat place)) := by
  simp only [encode, h]

theorem encode_of_some {node : Node} {id : Nat} (h : node.nested = some id)
    (document : Nat → Json) (place : Nat) :
    node.encode document place = .obj (written place (document id) node.fields) := by
  simp only [encode, h, written]

/-- Without its embedded graph, a written node is the node with its place. -/
theorem withoutEmbedded_written (place : Nat) (document : Json) (fields : Fields) :
    withoutEmbedded (written place document fields) =
      withoutEmbedded (fields.put "id" (.nat place)) := by
  rw [withoutEmbedded, written, Fields.modifyAttributes_modifyAttributes, withoutEmbedded]
  simp only [Fields.without_put_self]

theorem text_put_id (fields : Fields) (place : Nat) :
    (fields.put "id" (.nat place)).text "type" = fields.text "type" :=
  Fields.text_congr (Fields.value?_put_of_ne _ _ _ _ (by decide))

/-- The decoder finds in a written node the graph that was written into it. -/
theorem embedded_written {fields inner : Fields} (h : fields.text "type" = "NestedSDFG")
    (place : Nat) : embedded (written place (.obj inner) fields) = .ok (some inner) := by
  refine embedded_eq_ok ?_ ?_
  · have hkept : (written place (.obj inner) fields).text "type" =
        (fields.put "id" (.nat place)).text "type" :=
      Fields.text_congr (Fields.value?_modifyAttributes_of_ne _ (by decide))
    rw [hkept, text_put_id, h]
  · rw [written, Fields.attributes_modifyAttributes, Option.bind_some, Fields.value?_put_self]

end Node

/-! ## Graphs and what is nested in them -/

/-- A decoder of nested graphs reads the document of an owned graph as the block that the graph and
what is nested in it take up in an arena. -/
def NestedDecoder.Reads (nested : NestedDecoder) (children : Nat → List Nat)
    (document : Nat → Json) (again : Arena) (owner : Nat × Location) : Prop :=
  ∀ count, Walks children [owner.1] (List.range' owner.1 count) →
    owner.1 + count ≤ again.graphs.length → ∃ inner, document owner.1 = .obj inner ∧
      nested owner.1 owner.2 inner = .ok (again.block owner.1 count)

namespace State

variable {nested : NestedDecoder} {children : Nat → List Nat} {document : Nat → Json}
  {again : Arena}

/-- The nodes of a state are decoded as they were, and the graphs below them as one block. -/
theorem decodeNodes_encode {graph state next place count : Nat} {nodes : List Node}
    (hnested : ∀ owner ∈ ownersFrom graph state place nodes,
      nested.Reads children document again owner)
    (htyped : ∀ node ∈ nodes, node.Typed)
    (hwalk : Walks children (nodes.filterMap Node.nested) (List.range' next count))
    (hinside : next + count ≤ again.graphs.length) :
    decodeNodes nested graph state next place
        ((nodes.zipIdx place).map fun (node, index) => node.encode document index) =
      .ok ((nodes.zipIdx place).map fun (node, index) => node.reread index,
        again.block next count) := by
  induction nodes generalizing next place count with
  | nil =>
      have hcount : count = 0 := by
        rw [List.filterMap_nil] at hwalk
        have hlength := congrArg List.length (Walks.done.unique hwalk)
        simpa using hlength.symm
      rw [hcount]
      rfl
  | cons node rest ih =>
      obtain ⟨hnode, hrest⟩ := List.forall_mem_cons.mp htyped
      rw [List.zipIdx_cons, List.map_cons, List.map_cons]
      rw [ownersFrom_cons] at hnested
      cases howned : node.nested with
      | none =>
          have hkind : (node.fields.put "id" (.nat place)).text "type" ≠ "NestedSDFG" := by
            rw [Node.text_put_id]
            simpa [Node.Typed, Node.kind, howned] using hnode
          rw [List.filterMap_cons_none howned] at hwalk
          simp only [howned, Option.map_none, Option.toList_none, List.nil_append] at hnested
          have hbehind := ih hnested hrest hwalk hinside
          simp only [Node.encode_of_none howned, decodeNodes, Part.fields, ok_bind,
            Node.embedded_eq_none hkind, hbehind, Node.reread, howned]
          rfl
      | some id =>
          have hkind : node.fields.text "type" = "NestedSDFG" := by
            simpa [Node.Typed, Node.kind, howned] using hnode
          rw [List.filterMap_cons_some howned] at hwalk
          simp only [howned, Option.map_some, Option.toList_some, List.singleton_append] at hnested
          obtain ⟨hfirst, hothers⟩ := List.forall_mem_cons.mp hnested
          -- What the walk meets first is the block of this node; the rest is left to the induction.
          have hsplit : Walks children ([id] ++ rest.filterMap Node.nested)
            (List.range' next count) := hwalk
          obtain ⟨front, back, rfl, hfront, hback⟩ := hsplit.split_range'
          obtain ⟨_, _, rfl, _⟩ := hfront.head_range'
          obtain ⟨inner, hinner, hblock⟩ := hfirst front hfront (by dsimp only; omega)
          have hbehind := ih hothers hrest hback (by omega)
          have hlength : (again.block id front).length = front := Arena.block_length (by omega)
          simp only [Node.encode_of_some howned, hinner, decodeNodes, Part.fields, ok_bind,
            Node.embedded_written hkind, hblock, hlength, hbehind, Node.withoutEmbedded_written,
            Node.reread, howned, Arena.block_append]
          rfl

/-- What a state asks of its container to be read again. -/
structure Readable (state : State) : Prop where
  typed : state.Typed
  edges : state.EdgesInside
  ends : state.EndsFit

/-- A state is decoded from its document as it was, and the graphs below it as one block. -/
theorem decode_encode {graph next place count : Nat} {state : State} (h : state.Readable)
    (hnested : ∀ owner ∈ ownersFrom graph place 0 state.nodes,
      nested.Reads children document again owner)
    (hwalk : Walks children (state.nodes.filterMap Node.nested) (List.range' next count))
    (hinside : next + count ≤ again.graphs.length) :
    decode nested graph next place (state.encode document place) =
      .ok (state.reread place, again.block next count) := by
  have hnodes := decodeNodes_encode hnested h.typed hwalk hinside
  rw [← List.mapIdx_eq_zipIdx_map, ← List.mapIdx_eq_zipIdx_map] at hnodes
  have hedges := Edge.decodeAll_encode h.ends h.edges 0 (.state graph place)
  simp only [decode, encode, Edge.encodeAll, Part.fields, ok_bind, Part.items_nodes,
    Part.items_edges, hnodes, List.length_mapIdx, hedges, Fields.without_items]
  rfl

theorem decodeAll_encode {graph next place count : Nat} {states : List State}
    (h : ∀ state ∈ states, state.Readable)
    (hnested : ∀ owner ∈ Subgraph.ownersFrom graph place states,
      nested.Reads children document again owner)
    (hwalk : Walks children (states.flatMap fun state => state.nodes.filterMap Node.nested)
      (List.range' next count))
    (hinside : next + count ≤ again.graphs.length) :
    decodeAll nested graph next place
        ((states.zipIdx place).map fun (state, index) => state.encode document index) =
      .ok ((states.zipIdx place).map fun (state, index) => state.reread index,
        again.block next count) := by
  induction states generalizing next place count with
  | nil =>
      have hlength := congrArg List.length (Walks.done.unique hwalk)
      rw [List.length_nil, List.length_range'] at hlength
      rw [← hlength]
      rfl
  | cons state rest ih =>
      obtain ⟨hfirst, hrest⟩ := List.forall_mem_cons.mp h
      rw [Subgraph.ownersFrom_cons, List.forall_mem_append] at hnested
      rw [List.flatMap_cons] at hwalk
      obtain ⟨front, back, rfl, hfront, hback⟩ := hwalk.split_range'
      have hstate := decode_encode hfirst hnested.1 hfront (by omega)
      have hbehind := ih hrest hnested.2 hback (by omega)
      have hlength : (again.block next front).length = front := Arena.block_length (by omega)
      simp only [List.zipIdx_cons, List.map_cons, decodeAll, hstate, ok_bind, hlength, hbehind,
        Arena.block_append]
      rfl

end State

theorem Subgraph.values_numbered_of_ne {id : Nat} {fields : Fields} {key : String}
    (hlist : key ≠ "sdfg_list_id") (hconfig : key ≠ "cfg_list_id") :
    (numbered id fields).values key = fields.values key := by
  simp only [numbered]
  split
  · split <;> split <;> simp only [Fields.values_put, hlist, hconfig, if_false]
  · rw [Fields.values_put, if_neg hlist]

theorem Subgraph.value?_numbered_of_ne {id : Nat} {fields : Fields} {key : String}
    (hlist : key ≠ "sdfg_list_id") (hconfig : key ≠ "cfg_list_id") :
    (numbered id fields).value? key = fields.value? key := by
  rw [Fields.value?_eq_head?, Fields.value?_eq_head?, values_numbered_of_ne hlist hconfig]

namespace Arena

variable {arena : Arena}

theorem reread_getElem? (id : Nat) :
    arena.reread.graphs[id]? = arena.graphs[id]?.map (Subgraph.reread id) := by
  rw [reread, List.getElem?_mapIdx]

theorem reread_length : arena.reread.graphs.length = arena.graphs.length := by
  rw [reread, List.length_mapIdx]

/-- The document of a graph is read as the block of the graph and all that is nested in it. The
induction is on the number of graphs from it on, since nested graphs come later. -/
theorem WellFormed.decode_document (h : arena.WellFormed) (htyped : arena.Typed)
    (hends : arena.EndsFit) {id count : Nat} {graph : Subgraph}
    (hgraph : arena.graphs[id]? = some graph)
    (hwalk : Walks arena.childrenAt [id] (List.range' id count))
    (hinside : id + count ≤ arena.graphs.length) :
    ∃ fields, arena.document id = .obj fields ∧
      Subgraph.decode id graph.owner fields = .ok (arena.reread.block id count) := by
  induction hsize : arena.graphs.length - id using Nat.strongRecOn generalizing id count graph with
  | ind size ih =>
      obtain ⟨rest, rfl, _, hchildren⟩ := hwalk.head_range'
      rw [List.append_nil, childrenAt, hgraph, Option.elim_some] at hchildren
      have hmem := List.mem_of_getElem? hgraph
      -- A nested graph stands behind its owner, so fewer graphs come from it on.
      have hnested : ∀ owner ∈ Subgraph.ownersFrom id 0 graph.states,
          NestedDecoder.Reads
            (fun next location inner => Subgraph.decode next (some location) inner)
            arena.childrenAt arena.document arena.reread owner := by
        intro owner howner inner hinner hbelow
        rw [reread_length] at hbelow
        have howns : arena.Owns owner.2 owner.1 := by
          obtain ⟨rfl, _⟩ := mem_ownersIn.mp howner
          exact owns_iff.mpr ⟨graph, hgraph, howner⟩
        obtain ⟨hlt, _⟩ := h.lt_of_owns howns
        have hrecord := recordedOwner_eq_some.mp (h.recordedOwner_eq_some_iff.mpr howns)
        obtain ⟨owned, howned, hsome⟩ := Option.map_eq_some_iff.mp hrecord
        have hparent : owner.2.graph = id := (mem_ownersIn.mp howner).1
        have hread := ih _ (by omega) howned hinner hbelow rfl
        rwa [hsome] at hread
      have hreadable : ∀ state ∈ graph.states, state.Readable := fun state hstate =>
        ⟨(htyped graph hmem).states state hstate, (h.edges graph hmem).within state hstate,
          (hends graph hmem).within state hstate⟩
      have hstates := State.decodeAll_encode hreadable hnested hchildren
        (by rw [reread_length]; omega)
      rw [← List.mapIdx_eq_zipIdx_map, ← List.mapIdx_eq_zipIdx_map] at hstates
      have hedges := Edge.decodeAll_encode (hends graph hmem).between
        (h.edges graph hmem).between 0 (.graph id)
      have hagain : arena.reread.graphs[id]? = some (graph.reread id) := by
        rw [reread_getElem?, hgraph, Option.map_some]
      refine ⟨_, h.document_eq hgraph, ?_⟩
      have hkind : ∀ nodes edges : Json, Subgraph.checkKind
          (((Subgraph.numbered id graph.fields).put "nodes" nodes).put "edges" edges) = .ok () := by
        intro nodes edges
        rw [← (htyped graph hmem).kind]
        apply Subgraph.checkKind_congr
        rw [Fields.value?_put_of_ne _ _ _ _ (by decide),
          Fields.value?_put_of_ne _ _ _ _ (by decide),
          Subgraph.value?_numbered_of_ne (by decide) (by decide)]
      rw [Subgraph.decode_eq, block_succ hagain]
      simp only [Subgraph.decodeWith, Edge.encodeAll, hkind, ok_bind, Part.items_nodes,
        Part.items_edges, hstates, List.length_mapIdx, hedges, Fields.without_items]
      rfl

/-- A well-formed arena whose types and edges fit is read from its own document. -/
theorem WellFormed.ofJson_toJson_of_endsFit (h : arena.WellFormed) (htyped : arena.Typed)
    (hends : arena.EndsFit) : ofJson arena.toJson = .ok arena.reread := by
  obtain ⟨graph, hgraph, howner⟩ := Option.map_eq_some_iff.mp h.root
  have hwalk := h.preorder
  rw [List.range_eq_range'] at hwalk
  obtain ⟨fields, hfields, hdecode⟩ := h.decode_document htyped hends hgraph hwalk (by omega)
  rw [howner, ← reread_length, block_self] at hdecode
  rw [toJson_eq_document, hfields, ofJson, Part.fields, ok_bind, hdecode, ok_bind]
  rfl

/-- A well-formed arena is decoded from its document as it was, if its counts fit into a word. -/
theorem WellFormed.ofJson_toJson (h : arena.WellFormed) (htyped : arena.Typed)
    (hcounts : arena.CountsBelow wordCount) : ofJson arena.toJson = .ok arena.reread :=
  h.ofJson_toJson_of_endsFit htyped (hcounts.endsFit h)

end Arena

end DataflowEditor
