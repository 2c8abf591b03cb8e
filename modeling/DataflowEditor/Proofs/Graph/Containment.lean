import DataflowEditor.Graph.Locate
import DataflowEditor.Proofs.Graph.WellFormed

/-! # Elements and their containers

Which element holds which: a graph its states and the edges between them, a state its nodes and the
edges between those, and a node the graph it owns. The list of all elements of an arena holds each
live element once.
-/

namespace DataflowEditor

namespace Arena

variable {arena : Arena}

/-- The first element is the container of the second. The node that owns a nested graph is its
container; what an element is asked for here need not be live. -/
inductive Holds (arena : Arena) : Element → Element → Prop
  | state (id place : Nat) : Holds arena (.graph id) (.state id place)
  | between (id index : Nat) : Holds arena (.graph id) (.edge id none index)
  | node (id place index : Nat) : Holds arena (.state id place) (.node id place index)
  | within (id place index : Nat) : Holds arena (.state id place) (.edge id (some place) index)
  | nested {location : Location} {id : Nat} (howns : arena.Owns location id) :
      Holds arena (.ofLocation location) (.graph id)

/-! ## Live elements -/

theorem contains_graph {id : Nat} :
    arena.contains (.graph id) = true ↔ ∃ graph, arena.graphs[id]? = some graph := by
  simp only [contains, ← graph_eq_ok]
  cases arena.graph id <;> simp [Except.isOk, Except.toBool]

theorem contains_state {id place : Nat} : arena.contains (.state id place) = true ↔
    ∃ graph state, arena.graphs[id]? = some graph ∧ graph.states[place]? = some state := by
  rw [exists_comm]
  simp only [contains, ← state_eq_ok]
  cases arena.state id place <;> simp [Except.isOk, Except.toBool]

theorem contains_node {id place index : Nat} : arena.contains (.node id place index) = true ↔
    ∃ graph state, arena.graphs[id]? = some graph ∧ graph.states[place]? = some state ∧
      index < state.nodes.length := by
  have hnode : arena.contains (.node id place index) = true ↔
      ∃ node, arena.node ⟨id, place, index⟩ = .ok node := by
    simp only [contains]
    cases arena.node ⟨id, place, index⟩ <;> simp [Except.isOk, Except.toBool]
  simp only [hnode, node_eq_ok, List.getElem?_eq_some_iff]
  constructor
  · rintro ⟨node, graph, state, hgraph, hstate, hindex, _⟩
    exact ⟨graph, state, hgraph, hstate, hindex⟩
  · rintro ⟨graph, state, hgraph, hstate, hindex⟩
    exact ⟨_, graph, state, hgraph, hstate, hindex, rfl⟩

theorem contains_within {id place index : Nat} :
    arena.contains (.edge id (some place) index) = true ↔
      ∃ graph state, arena.graphs[id]? = some graph ∧ graph.states[place]? = some state ∧
        index < state.edges.length := by
  have hedge : arena.contains (.edge id (some place) index) = true ↔
      ∃ state, arena.state id place = .ok state ∧ index < state.edges.length := by
    simp only [contains]
    cases arena.state id place <;> simp
  simp only [hedge, state_eq_ok]
  constructor
  · rintro ⟨state, ⟨graph, hgraph, hstate⟩, hindex⟩
    exact ⟨graph, state, hgraph, hstate, hindex⟩
  · rintro ⟨graph, state, hgraph, hstate, hindex⟩
    exact ⟨state, ⟨graph, hgraph, hstate⟩, hindex⟩

theorem contains_between {id index : Nat} : arena.contains (.edge id none index) = true ↔
    ∃ graph, arena.graphs[id]? = some graph ∧ index < graph.edges.length := by
  simp only [contains, ← graph_eq_ok]
  cases arena.graph id <;> simp

/-! ## The list of all elements -/

/-- The elements of one state, itself first. -/
def elementsOfState (id place : Nat) (state : State) : List Element :=
  .state id place :: ((List.range state.nodes.length).map (.node id place) ++
    (List.range state.edges.length).map (.edge id (some place)))

/-- The elements of one graph, itself first. -/
def elementsOfGraph (id : Nat) (graph : Subgraph) : List Element :=
  .graph id :: (graph.states.zipIdx.flatMap fun (state, place) =>
    elementsOfState id place state) ++ (List.range graph.edges.length).map (.edge id none)

/-- The elements are listed graph by graph. -/
theorem elements_eq :
    arena.elements = arena.graphs.zipIdx.flatMap fun (graph, id) => elementsOfGraph id graph :=
  rfl

/-- A state contributes itself, its nodes and its edges. -/
theorem mem_elementsOfState {id place : Nat} {state : State} {element : Element} :
    element ∈ elementsOfState id place state ↔ element = .state id place ∨
      (∃ index < state.nodes.length, element = .node id place index) ∨
        ∃ index < state.edges.length, element = .edge id (some place) index := by
  simp only [elementsOfState, List.mem_cons, List.mem_append, List.mem_map, List.mem_range,
    eq_comm]

/-- A graph contributes itself, its states with all they contribute, and its own edges. -/
theorem mem_elementsOfGraph {id : Nat} {graph : Subgraph} {element : Element} :
    element ∈ elementsOfGraph id graph ↔ element = .graph id ∨
      (∃ place state, graph.states[place]? = some state ∧
        element ∈ elementsOfState id place state) ∨
          ∃ index < graph.edges.length, element = .edge id none index := by
  simp only [elementsOfGraph, List.cons_append, List.mem_cons, List.mem_append, List.mem_flatMap,
    List.mem_map, List.mem_range, Prod.exists, List.mk_mem_zipIdx_iff_getElem?]
  constructor
  · rintro (h | ⟨state, place, hstate, h⟩ | ⟨index, hindex, h⟩)
    · exact .inl h
    · exact .inr (.inl ⟨place, state, hstate, h⟩)
    · exact .inr (.inr ⟨index, hindex, h.symm⟩)
  · rintro (h | ⟨place, state, hstate, h⟩ | ⟨index, hindex, h⟩)
    · exact .inl h
    · exact .inr (.inl ⟨state, place, hstate, h⟩)
    · exact .inr (.inr ⟨index, hindex, h.symm⟩)

/-- The listed elements are the live ones. -/
theorem mem_elements {element : Element} :
    element ∈ arena.elements ↔ arena.contains element = true := by
  have hmem : element ∈ arena.elements ↔ ∃ id graph, arena.graphs[id]? = some graph ∧
      element ∈ elementsOfGraph id graph := by
    simp only [elements_eq, List.mem_flatMap, Prod.exists, List.mk_mem_zipIdx_iff_getElem?]
    exact exists_comm
  rw [hmem]
  simp only [mem_elementsOfGraph, mem_elementsOfState]
  cases element with
  | graph id => simp [contains_graph]
  | state id place => simp [contains_state]
  | node id place index => simp [contains_node]
  | edge id place index =>
      cases place with
      | none => simp [contains_between]
      | some place => simp [contains_within]

theorem statePlace_of_mem {id place : Nat} {state : State} {element : Element}
    (h : element ∈ elementsOfState id place state) : element.statePlace = some place := by
  rcases mem_elementsOfState.mp h with rfl | ⟨_, _, rfl⟩ | ⟨_, _, rfl⟩ <;> rfl

theorem graphIndex_of_mem {id : Nat} {graph : Subgraph} {element : Element}
    (h : element ∈ elementsOfGraph id graph) : element.graphIndex = id := by
  rcases mem_elementsOfGraph.mp h with rfl | ⟨_, _, _, h⟩ | ⟨_, _, rfl⟩
  · rfl
  · rcases mem_elementsOfState.mp h with rfl | ⟨_, _, rfl⟩ | ⟨_, _, rfl⟩ <;> rfl
  · rfl

/-- Parts listed for different places have no element in common. -/
theorem nodup_flatMap_zipIdx {α : Type} {items : List α} {part : α × Nat → List Element}
    (hpart : ∀ item ∈ items.zipIdx, (part item).Nodup) {placeOf : Element → Option Nat}
    (hplace : ∀ item ∈ items.zipIdx, ∀ element ∈ part item, placeOf element = some item.2) :
    (items.zipIdx.flatMap part).Nodup := by
  refine List.nodup_flatMap.mpr ⟨hpart, ?_⟩
  have hplaces : (items.zipIdx.map Prod.snd).Nodup := by
    rw [List.zipIdx_map_snd]
    exact List.nodup_range'
  refine (List.pairwise_map.mp hplaces).imp_of_mem fun {first second} hfirst hsecond hne => ?_
  intro element helement hother
  have hsame := (hplace first hfirst element helement).symm.trans
    (hplace second hsecond element hother)
  exact hne (Option.some.inj hsame)

theorem elementsOfState_nodup (id place : Nat) (state : State) :
    (elementsOfState id place state).Nodup := by
  have hnodes : ((List.range state.nodes.length).map (Element.node id place)).Nodup :=
    List.nodup_range.map fun a b h => by injection h
  have hedges : ((List.range state.edges.length).map (Element.edge id (some place))).Nodup :=
    List.nodup_range.map fun a b h => by injection h
  refine List.nodup_cons.mpr ⟨by simp, hnodes.append hedges ?_⟩
  intro element hnode hedge
  obtain ⟨_, _, rfl⟩ := List.mem_map.mp hnode
  simp at hedge

theorem elementsOfGraph_nodup (id : Nat) (graph : Subgraph) :
    (elementsOfGraph id graph).Nodup := by
  have hstates : (graph.states.zipIdx.flatMap fun (state, place) =>
      elementsOfState id place state).Nodup :=
    nodup_flatMap_zipIdx (fun item _ => elementsOfState_nodup id item.2 item.1)
      fun item _ element helement => statePlace_of_mem helement
  have hedges : ((List.range graph.edges.length).map (Element.edge id none)).Nodup :=
    List.nodup_range.map fun a b h => by injection h
  rw [elementsOfGraph, List.cons_append]
  refine List.nodup_cons.mpr ⟨?_, hstates.append hedges ?_⟩
  · simp [mem_elementsOfState]
  · intro element hstate hedge
    obtain ⟨item, _, hmem⟩ := List.mem_flatMap.mp hstate
    obtain ⟨index, _, rfl⟩ := List.mem_map.mp hedge
    cases statePlace_of_mem hmem

/-- No element is listed twice. -/
theorem elements_nodup : arena.elements.Nodup :=
  nodup_flatMap_zipIdx (fun item _ => elementsOfGraph_nodup item.2 item.1)
    fun item _ element helement =>
      show some element.graphIndex = some item.2 from
        congrArg some (graphIndex_of_mem helement)

/-- Each live element is listed once, and nothing else is. -/
theorem count_elements (element : Element) :
    arena.elements.count element = if arena.contains element then 1 else 0 := by
  split
  next h => exact List.count_eq_one_of_mem elements_nodup (mem_elements.mpr h)
  next h => exact List.count_eq_zero_of_not_mem fun hmem => h (mem_elements.mp hmem)

end Arena

end DataflowEditor
