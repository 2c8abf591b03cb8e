import DataflowEditor.Proofs.Graph.Rereading

/-! # What an accepted document embeds

A document is accepted only if every document within it is. So each node of an arena is read when
the document of the arena is, however deep the graph that it lies in, as long as the nodes that own
graphs give them away. A node of their type that owns none has nothing to give.
-/

namespace DataflowEditor

/-- The document of a node is accepted, and so is the graph that is embedded in it, if there is
one. -/
def Node.Accepted (nested : NestedDecoder) (document : Json) : Prop :=
  ∃ fields inner, document = .obj fields ∧ embedded fields = .ok inner ∧
    ∀ members, inner = some members → ∃ next location block,
      nested next location members = .ok block

namespace State

variable {nested : NestedDecoder}

theorem decodeNodes_accepted {graph state next place : Nat} {documents : List Json}
    {nodes : List Node} {blocks : List Subgraph}
    (h : decodeNodes nested graph state next place documents = .ok (nodes, blocks)) :
    ∀ document ∈ documents, Node.Accepted nested document := by
  induction documents generalizing next place nodes blocks with
  | nil => simp
  | cons document rest ih =>
      obtain ⟨fields, hfields, h⟩ := bind_eq_ok.mp h
      obtain ⟨inner, hinner, h⟩ := bind_eq_ok.mp h
      have hdocument := Part.fields_eq_ok.mp hfields
      cases inner with
      | none =>
          obtain ⟨_, hrest, _⟩ := bind_eq_ok.mp h
          refine List.forall_mem_cons.mpr ⟨⟨fields, none, hdocument, hinner, ?_⟩, ih hrest⟩
          intro members hmembers
          cases hmembers
      | some members =>
          obtain ⟨block, hblock, h⟩ := bind_eq_ok.mp h
          obtain ⟨_, hrest, _⟩ := bind_eq_ok.mp h
          refine List.forall_mem_cons.mpr
            ⟨⟨fields, some members, hdocument, hinner, ?_⟩, ih hrest⟩
          rintro _ ⟨⟩
          exact ⟨next, _, block, hblock⟩

theorem decodeAll_accepted {graph next place : Nat} {documents : List Json} {states : List State}
    {blocks : List Subgraph}
    (h : decodeAll nested graph next place documents = .ok (states, blocks)) :
    ∀ document ∈ documents, ∃ next place result,
      decode nested graph next place document = .ok result := by
  induction documents generalizing next place states blocks with
  | nil => simp
  | cons document rest ih =>
      obtain ⟨result, hresult, h⟩ := bind_eq_ok.mp h
      obtain ⟨_, hrest, _⟩ := bind_eq_ok.mp h
      exact List.forall_mem_cons.mpr ⟨⟨next, place, result, hresult⟩, ih hrest⟩

end State

/-- Whoever reads the document of a graph reads all its nodes. -/
theorem Subgraph.encode_accepted {graph : Subgraph} {documents : Nat → Json} {id next : Nat}
    {owner : Option Location} {fields : Fields} {block : List Subgraph}
    (hfields : graph.encode documents id = .obj fields)
    (h : decode next owner fields = .ok block) {place index : Nat} {state : State} {node : Node}
    (hstate : graph.states[place]? = some state) (hnode : state.nodes[index]? = some node) :
    Node.Accepted (fun next location inner => decode next (some location) inner)
      (node.encode documents index) := by
  obtain rfl := Json.obj.inj hfields
  rw [decode_eq] at h
  obtain ⟨_, _, h⟩ := bind_eq_ok.mp h
  obtain ⟨stateDocuments, hdocuments, h⟩ := bind_eq_ok.mp h
  obtain ⟨_, _, h⟩ := bind_eq_ok.mp h
  obtain ⟨_, hstates, _⟩ := bind_eq_ok.mp h
  rw [Part.items_nodes] at hdocuments
  cases hdocuments
  have hmem : state.encode documents place ∈
      graph.states.mapIdx fun place state => state.encode documents place := by
    refine List.mem_of_getElem? (i := place) ?_
    rw [List.getElem?_mapIdx, hstate, Option.map_some]
  obtain ⟨_, _, _, hdecoded⟩ := State.decodeAll_accepted hstates _ hmem
  obtain ⟨_, hobject, hdecoded⟩ := bind_eq_ok.mp hdecoded
  obtain ⟨nodeDocuments, hdocuments, hdecoded⟩ := bind_eq_ok.mp hdecoded
  obtain ⟨_, _, hdecoded⟩ := bind_eq_ok.mp hdecoded
  obtain ⟨_, hnodes, _⟩ := bind_eq_ok.mp hdecoded
  cases hobject
  rw [Part.items_nodes] at hdocuments
  cases hdocuments
  refine State.decodeNodes_accepted hnodes _ (List.mem_of_getElem? (i := index) ?_)
  rw [List.getElem?_mapIdx, hnode, Option.map_some]

namespace Arena

variable {arena : Arena}

/-- Nodes that own graphs have the type of those that do. -/
def OwnersTyped (arena : Arena) : Prop :=
  ∀ graph ∈ arena.graphs, ∀ state ∈ graph.states, ∀ node ∈ state.nodes,
    node.nested.isSome → node.kind = "NestedSDFG"

/-- In a typed arena every owner is a NestedSDFG node. -/
theorem Typed.owners (h : arena.Typed) : arena.OwnersTyped :=
  fun graph hgraph state hstate node hnode => ((h graph hgraph).states state hstate node hnode).mp

/-- Pushing a node without a graph keeps it so. -/
theorem OwnersTyped.pushNode (h : arena.OwnersTyped) (id place : Nat) {node : Node}
    (hnode : node.nested = none) : (arena.modifyState id place (·.pushNode node)).OwnersTyped := by
  refine forall_modifyState h (fun _ hgraph => hgraph) ?_ fun _ _ _ hstates => hstates
  intro state hstate other hother
  rcases List.mem_append.mp hother with hother | hother
  · exact hstate other hother
  · rw [List.mem_singleton.mp hother, hnode]
    intro hsome
    cases hsome

/-- Whoever reads the document of an arena reads that of every graph in it. The induction is on the
index of the graph, since its owner lies in a graph before it. -/
theorem WellFormed.document_accepted (h : arena.WellFormed) (howners : arena.OwnersTyped)
    {again : Arena} (hread : ofJson arena.toJson = .ok again) {id : Nat} {graph : Subgraph}
    (hgraph : arena.graphs[id]? = some graph) : ∃ next owner fields block,
      graph.encode arena.document id = .obj fields ∧
        Subgraph.decode next owner fields = .ok block := by
  induction id using Nat.strongRecOn generalizing graph with
  | ind id ih =>
      rcases Nat.eq_zero_or_pos id with rfl | hpos
      · rw [toJson_eq_document, h.document_eq hgraph] at hread
        obtain ⟨fields, hfields, hread⟩ := bind_eq_ok.mp hread
        obtain ⟨block, hblock, _⟩ := bind_eq_ok.mp hread
        exact ⟨0, none, fields, block, Part.fields_eq_ok.mp hfields, hblock⟩
      · have hinside := (List.getElem?_eq_some_iff.mp hgraph).1
        obtain ⟨location, _, hunique⟩ := h.owned id hpos hinside
        have howns := (hunique location).mpr rfl
        obtain ⟨node, hnode, hnested⟩ := howns
        obtain ⟨holder, state, hholder, hstate, hindex⟩ := node_eq_ok.mp hnode
        obtain ⟨_, _, fields, block, hfields, hblock⟩ :=
          ih _ (h.lt_of_owns ⟨node, hnode, hnested⟩).1 hholder
        have hkind := howners holder (List.mem_of_getElem? hholder) state
          (List.mem_of_getElem? hstate) node (List.mem_of_getElem? hindex)
          (by rw [hnested]; rfl)
        obtain ⟨written, inner, hwritten, hinner, hdecoded⟩ :=
          Subgraph.encode_accepted hfields hblock hstate hindex
        rw [Node.encode_of_some hnested, h.document_eq hgraph, Subgraph.encode] at hwritten
        obtain rfl := Json.obj.inj hwritten
        rw [Node.embedded_written hkind] at hinner
        cases hinner
        obtain ⟨next, location, block, hblock⟩ := hdecoded _ rfl
        exact ⟨next, some location, _, block, rfl, hblock⟩

/-- A node that owns no graph is read from the fields that it is written with. -/
theorem WellFormed.embedded_of_ofJson (h : arena.WellFormed) (howners : arena.OwnersTyped)
    {again : Arena} (hread : ofJson arena.toJson = .ok again) {location : Location} {node : Node}
    (hnode : arena.node location = .ok node) (hnested : node.nested = none) :
    ∃ inner, Node.embedded (node.fields.put "id" (.nat location.node)) = .ok inner := by
  obtain ⟨holder, state, hholder, hstate, hindex⟩ := node_eq_ok.mp hnode
  obtain ⟨_, _, fields, block, hfields, hblock⟩ := h.document_accepted howners hread hholder
  obtain ⟨written, inner, hwritten, hinner, _⟩ :=
    Subgraph.encode_accepted hfields hblock hstate hindex
  rw [Node.encode_of_none hnested] at hwritten
  obtain rfl := Json.obj.inj hwritten
  exact ⟨inner, hinner⟩

end Arena

end DataflowEditor
