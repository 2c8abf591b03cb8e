import DataflowEditor.Graph.Encode
import DataflowEditor.Proofs.Graph.Decoding

/-! # Descents without a bound

The decoder descends into a document and the encoder into an arena, each to a bounded depth. Neither
bound is ever reached: what is nested in a document is less deep than the document, and in a
well-formed arena a nested graph has a higher index than its owner. Both functions therefore satisfy
the equations that they would have without a bound.
-/

namespace DataflowEditor

/-! ## Depth of what is decoded -/

/-- The documents that a part lists are nested less deep than the part. -/
theorem Part.depth_lt_of_items {part : Part} {key : String} {fields : Fields} {items : List Json}
    (h : part.items key fields = .ok items) {document : Json} (hdocument : document ∈ items) :
    document.depth < Json.depthMembers fields := by
  unfold Part.items at h
  split at h
  · cases h
    simp at hdocument
  · cases h
    simp at hdocument
  next found hvalue =>
    cases h
    have harray := Json.depth_le_of_value? hvalue
    have hitem := Json.depth_le_of_mem hdocument
    rw [Json.depth] at harray
    omega
  · cases h

theorem Node.embedded_eq_some {fields inner : Fields} (h : embedded fields = .ok (some inner)) :
    ((fields.value? "attributes").bind Json.asObject?).bind (Fields.value? · "sdfg") =
      some (.obj inner) := by
  unfold embedded at h
  split at h
  · split at h
    next document hdocument =>
      cases hfields : Part.nested.fields document with
      | error => simp [hfields, Except.map] at h
      | ok members =>
          rw [hfields] at h
          cases h
          rw [hdocument, Part.fields_eq_ok.mp hfields]
    next => cases h
  · cases h

theorem Node.depth_lt_of_embedded {fields inner : Fields}
    (h : embedded fields = .ok (some inner)) :
    Json.depthMembers inner < Json.depthMembers fields := by
  obtain ⟨attributes, hattributes, hinner⟩ := Option.bind_eq_some_iff.mp (embedded_eq_some h)
  obtain ⟨document, hdocument, hobject⟩ := Option.bind_eq_some_iff.mp hattributes
  cases document with
  | obj members =>
      obtain rfl := Option.some.inj hobject
      have houter := Json.depth_le_of_value? hdocument
      have hbelow := Json.depth_le_of_value? hinner
      rw [Json.depth] at houter hbelow
      omega
  | _ => cases hobject

/-! ## The decoder -/

namespace State

variable {nested other : NestedDecoder} {bound : Nat}

/-- The nodes of a state are decoded alike by nested decoders that agree below the bound. -/
theorem decodeNodes_congr (hnested : ∀ next location inner, Json.depthMembers inner < bound →
    nested next location inner = other next location inner) {graph state next place : Nat}
    {documents : List Json} (hdocuments : ∀ document ∈ documents, document.depth ≤ bound) :
    decodeNodes nested graph state next place documents =
      decodeNodes other graph state next place documents := by
  induction documents generalizing next place with
  | nil => rfl
  | cons document rest ih =>
      obtain ⟨hfirst, hrest⟩ := List.forall_mem_cons.mp hdocuments
      simp only [decodeNodes]
      cases hfields : Part.node.fields document with
      | error => rfl
      | ok fields =>
          rw [Part.fields_eq_ok.mp hfields, Json.depth] at hfirst
          cases hembedded : Node.embedded fields with
          | error => simp [hembedded]
          | ok embedded =>
              cases embedded with
              | none => simp only [ok_bind, hembedded, ih hrest]
              | some inner =>
                  have hdepth := Node.depth_lt_of_embedded hembedded
                  simp only [ok_bind, hembedded, ih hrest, hnested _ _ inner (by omega)]

theorem decodeAll_congr (hnested : ∀ next location inner, Json.depthMembers inner < bound →
    nested next location inner = other next location inner) {graph next place : Nat}
    {documents : List Json} (hdocuments : ∀ document ∈ documents, document.depth ≤ bound) :
    decodeAll nested graph next place documents =
      decodeAll other graph next place documents := by
  induction documents generalizing next place with
  | nil => rfl
  | cons document rest ih =>
      obtain ⟨hfirst, hrest⟩ := List.forall_mem_cons.mp hdocuments
      have hstate : decode nested graph next place document =
          decode other graph next place document := by
        simp only [decode]
        cases hfields : Part.state.fields document with
        | error => rfl
        | ok fields =>
            rw [Part.fields_eq_ok.mp hfields, Json.depth] at hfirst
            cases hnodes : Part.state.items "nodes" fields with
            | error => simp [hnodes]
            | ok nodeDocuments =>
                -- The nodes lie inside the document of the state, so they are not deeper.
                have hdepth : ∀ node ∈ nodeDocuments, node.depth ≤ bound := by
                  intro node hnode
                  have hlt := Part.depth_lt_of_items hnodes hnode
                  omega
                simp only [ok_bind, hnodes, decodeNodes_congr hnested hdepth]
      simp only [decodeAll, hstate, ih hrest]

end State

namespace Subgraph

/-- So is a graph, if the decoders agree on all that is nested less deep. -/
theorem decodeWith_congr {nested other : NestedDecoder} {fields : Fields}
    (hnested : ∀ next location inner, Json.depthMembers inner < Json.depthMembers fields →
      nested next location inner = other next location inner) (id : Nat)
    (owner : Option Location) :
    decodeWith nested id owner fields = decodeWith other id owner fields := by
  simp only [decodeWith]
  cases hstates : Part.graph.items "nodes" fields with
  | error => rfl
  | ok stateDocuments =>
      have hdepth : ∀ document ∈ stateDocuments,
          document.depth ≤ Json.depthMembers fields :=
        fun document hdocument => Nat.le_of_lt (Part.depth_lt_of_items hstates hdocument)
      simp only [ok_bind, State.decodeAll_congr hnested hdepth]

/-- Any two amounts of fuel past the depth of the document decode alike. -/
theorem decodeWithin_eq {fuel other : Nat} {fields : Fields}
    (hfuel : Json.depthMembers fields < fuel) (hother : Json.depthMembers fields < other) (id : Nat)
    (owner : Option Location) :
    decodeWithin fuel id owner fields = decodeWithin other id owner fields := by
  induction fuel generalizing other id owner fields with
  | zero => omega
  | succ fuel ih =>
      cases other with
      | zero => omega
      | succ other =>
          refine decodeWith_congr (fun next location inner hinner => ?_) id owner
          exact ih (by omega) (by omega) next (some location)

/-- A document is decoded by decoding the documents nested in it. -/
theorem decode_eq (id : Nat) (owner : Option Location) (fields : Fields) :
    decode id owner fields =
      decodeWith (fun next location inner => decode next (some location) inner) id owner
        fields := by
  refine decodeWith_congr (fun next location inner hinner => ?_) id owner
  exact decodeWithin_eq (by omega) (by omega) next (some location)

end Subgraph

/-! ## The encoder -/

/-- Writing a node uses the document of its own nested graph only. -/
theorem Node.encode_congr {first second : Nat → Json} {node : Node}
    (h : ∀ id, node.nested = some id → first id = second id) (place : Nat) :
    node.encode first place = node.encode second place := by
  unfold Node.encode
  cases hnested : node.nested with
  | none => rfl
  | some id => simp only [h id hnested]

/-- Writing a graph uses the documents of its children only. -/
theorem Subgraph.encode_congr {first second : Nat → Json} {graph : Subgraph}
    (h : ∀ id ∈ graph.children, first id = second id) (id : Nat) :
    graph.encode first id = graph.encode second id := by
  have hnode : ∀ state ∈ graph.states, ∀ node ∈ state.nodes, ∀ place,
      node.encode first place = node.encode second place := by
    intro state hstate node hnode
    refine Node.encode_congr fun nested hnested => h nested ?_
    exact List.mem_flatMap_of_mem hstate (List.mem_filterMap.mpr ⟨node, hnode, hnested⟩)
  have hstate : graph.states.mapIdx (fun place state => state.encode first place) =
      graph.states.mapIdx (fun place state => state.encode second place) := by
    apply List.mapIdx_eq_mapIdx_iff.mpr
    intro place hplace
    have hnodes : graph.states[place].nodes.mapIdx (fun index node => node.encode first index) =
        graph.states[place].nodes.mapIdx (fun index node => node.encode second index) :=
      List.mapIdx_eq_mapIdx_iff.mpr fun index hindex =>
        hnode _ (List.getElem_mem hplace) _ (List.getElem_mem hindex) index
    simp only [State.encode, hnodes]
  simp only [Subgraph.encode, hstate]

namespace Arena

variable {arena : Arena}

/-- The document that a graph of the arena is written as. -/
def document (arena : Arena) (id : Nat) : Json :=
  arena.encodeWithin arena.graphs.length id

theorem toJson_eq_document : arena.toJson = arena.document 0 :=
  rfl

/-- A nested graph comes behind the graph it is nested in. -/
theorem WellFormed.lt_of_mem_children (h : arena.WellFormed) {id nested : Nat} {graph : Subgraph}
    (hgraph : arena.graphs[id]? = some graph) (hnested : nested ∈ graph.children) :
    id < nested ∧ nested < arena.graphs.length := by
  obtain ⟨location, howner⟩ : ∃ location, (nested, location) ∈ ownersIn id graph := by
    rw [← ownersIn_fst id] at hnested
    obtain ⟨⟨_, location⟩, howner, rfl⟩ := List.mem_map.mp hnested
    exact ⟨location, howner⟩
  obtain ⟨rfl, _⟩ := mem_ownersIn.mp howner
  exact h.lt_of_owns (owns_iff.mpr ⟨graph, hgraph, howner⟩)

theorem encodeWithin_beyond (id : Nat) (h : arena.graphs.length ≤ id) (fuel : Nat) :
    arena.encodeWithin fuel id = .null := by
  cases fuel with
  | zero => rfl
  | succ fuel => rw [encodeWithin, List.getElem?_eq_none h]

/-- Any two amounts of fuel past the number of graphs still to come write alike. -/
theorem WellFormed.encodeWithin_eq (h : arena.WellFormed) {fuel other id : Nat}
    (hfuel : arena.graphs.length ≤ id + fuel) (hother : arena.graphs.length ≤ id + other) :
    arena.encodeWithin fuel id = arena.encodeWithin other id := by
  induction fuel generalizing other id with
  | zero => rw [encodeWithin_beyond id hfuel, encodeWithin_beyond id hfuel]
  | succ fuel ih =>
      cases other with
      | zero => rw [encodeWithin_beyond id hother, encodeWithin_beyond id hother]
      | succ other =>
          rw [encodeWithin, encodeWithin]
          cases hgraph : arena.graphs[id]? with
          | none => rfl
          | some graph =>
              refine Subgraph.encode_congr (fun nested hnested => ?_) id
              obtain ⟨hlt, _⟩ := h.lt_of_mem_children hgraph hnested
              exact ih (by omega) (by omega)

/-- A graph is written with the documents of the graphs that its nodes own. -/
theorem WellFormed.document_eq (h : arena.WellFormed) {id : Nat} {graph : Subgraph}
    (hgraph : arena.graphs[id]? = some graph) :
    arena.document id = graph.encode arena.document id := by
  have hinside := (List.getElem?_eq_some_iff.mp hgraph).1
  rw [document, h.encodeWithin_eq (by omega) (show arena.graphs.length ≤ id +
    (arena.graphs.length + 1) by omega), encodeWithin, hgraph]
  rfl

end Arena

end DataflowEditor
