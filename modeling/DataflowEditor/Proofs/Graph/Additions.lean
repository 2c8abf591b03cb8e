import DataflowEditor.Proofs.Graph.Containment
import DataflowEditor.Proofs.Graph.Editing

/-! # What an edit adds

A new element comes behind those of its kind, so its place is the number of them before the edit.
There it is found afterwards, also when the edit brought a nested graph and the graphs are numbered
anew: the graph with the new node keeps its number, since nothing in front of it has changed.
-/

namespace DataflowEditor

namespace Edit

/-- The edit adds an element, and does not remove or change any. -/
def adds : Edit → Bool
  | .erase _ => false
  | .uninstrument => false
  | _ => true

/-- The element that an edit adds, by its place in its container. -/
def added : Edit → Nat → Option Element
  | .pushState id _, place => some (.state id place)
  | .pushNode id place _, index => some (.node id place index)
  | .pushNestedNode id place _ _, index => some (.node id place index)
  | .connectNodes id place _ _ _, index => some (.edge id (some place) index)
  | .connectStates id _ _ _, index => some (.edge id none index)
  | .erase _, _ => none
  | .uninstrument, _ => none

end Edit

namespace Arena

variable {arena : Arena} {id place index : Nat} {graph : Subgraph} {state : State}

/-! ## Elements of a known container -/

theorem contains_state_iff (h : arena.graphs[id]? = some graph) :
    arena.contains (.state id place) = true ↔ place < graph.states.length := by
  simp [contains_state, h, List.getElem?_eq_some_iff]

theorem contains_between_iff (h : arena.graphs[id]? = some graph) :
    arena.contains (.edge id none index) = true ↔ index < graph.edges.length := by
  simp [contains_between, h]

theorem contains_node_iff (h : arena.state id place = .ok state) :
    arena.contains (.node id place index) = true ↔ index < state.nodes.length := by
  rcases state_eq_ok.mp h with ⟨graph, hgraph, hplace⟩
  simp [contains_node, hgraph, hplace]

theorem contains_within_iff (h : arena.state id place = .ok state) :
    arena.contains (.edge id (some place) index) = true ↔ index < state.edges.length := by
  rcases state_eq_ok.mp h with ⟨graph, hgraph, hplace⟩
  simp [contains_within, hgraph, hplace]

/-! ## Containers after a change -/

/-- The state that is changed is found again. -/
theorem state_modifyState (h : arena.state id place = .ok state) (change : State → State) :
    (arena.modifyState id place change).state id place = .ok (change state) := by
  obtain ⟨graph, hgraph, hplace⟩ := state_eq_ok.mp h
  refine state_eq_ok.mpr ⟨{ graph with states := graph.states.modify place change }, ?_, ?_⟩
  · rw [modifyState_eq, modifyGraph_getElem?, hgraph]
    simp
  · simp [hplace]

theorem graph_modifyGraph (h : arena.graphs[id]? = some graph) (change : Subgraph → Subgraph) :
    (arena.modifyGraph id change).graphs[id]? = some (change graph) := by
  rw [modifyGraph_getElem?, h, if_pos rfl, Option.map_some]

theorem state_append (h : arena.state id place = .ok state) (block : List Subgraph) :
    (Arena.mk (arena.graphs ++ block)).state id place = .ok state := by
  rcases state_eq_ok.mp h with ⟨graph, hgraph, hplace⟩
  refine state_eq_ok.mpr ⟨graph, ?_, hplace⟩
  rw [List.getElem?_append_left (List.getElem?_eq_some_iff.mp hgraph).1, hgraph]

/-- A state keeps its place in its graph when graphs are renumbered. -/
theorem Reaches.state_renumber {met : List Nat} (h : arena.Reaches met) (hid : id ∈ met)
    (hstate : arena.state id place = .ok state) :
    arena.renumber.state (met.idxOf id) place = .ok { state with
      nodes := state.nodes.map fun node =>
        { node with nested := node.nested.bind fun nested => some (met.idxOf nested) } } := by
  obtain ⟨graph, hgraph, hplace⟩ := state_eq_ok.mp hstate
  obtain ⟨owner, hrenamed⟩ := h.renumber_renamed id hid graph hgraph
  refine state_eq_ok.mpr ⟨_, hrenamed, ?_⟩
  rw [renameNested, List.getElem?_map, hplace]
  rfl

/-- The owner of a new nested graph is found where it was added. -/
theorem WellFormed.node_pushNested (h : arena.WellFormed)
    (hstate : arena.state id place = .ok state) {location : Location} {inner : Fields}
    {block : List Subgraph} (fields : Fields)
    (hblock : Subgraph.decode arena.graphs.length (some location) inner = .ok block) :
    ∃ pushed nested, ((Arena.mk (arena.graphs ++ block)).modifyState id place
      (·.pushNode ⟨some arena.graphs.length, fields⟩)).renumber.state id place = .ok pushed ∧
        pushed.nodes[state.nodes.length]? = some ⟨some nested, fields⟩ := by
  rcases state_eq_ok.mp hstate with ⟨graph, hgraph, -⟩
  rcases h.reaches_pushNode hstate fields hblock with ⟨met, -, hreach, -⟩
  rcases h.idxOf_pushNode hgraph hreach (Nat.le_refl id) with ⟨hmet, hname⟩
  have hpushed := hreach.state_renumber hmet (state_modifyState (state_append hstate block)
    (·.pushNode ⟨some arena.graphs.length, fields⟩))
  rw [hname] at hpushed
  exact ⟨_, _, hpushed, by simp [State.pushNode]; rfl⟩

/-! ## New elements -/

/-- What an edit has added is live, and it was not before. -/
theorem Effect.added_live {edit : Edit} {result : Arena} {answer : Option Nat}
    (h : arena.Effect edit result answer) (hformed : arena.WellFormed) (hadds : edit.adds = true) :
    ∃ index element, answer = some index ∧ edit.added index = some element ∧
      result.contains element = true ∧ arena.contains element = false := by
  cases h with
  | pushState hgraph =>
      refine ⟨_, _, rfl, rfl, (contains_state_iff (graph_modifyGraph hgraph _)).mpr ?_, ?_⟩
      · simp [Subgraph.pushState]
      · rw [← Bool.not_eq_true, contains_state_iff hgraph]
        exact Nat.lt_irrefl _
  | pushNode hstate _ =>
      refine ⟨_, _, rfl, rfl, (contains_node_iff (state_modifyState hstate _)).mpr ?_, ?_⟩
      · simp [State.pushNode]
      · rw [← Bool.not_eq_true, contains_node_iff hstate]
        exact Nat.lt_irrefl _
  | pushNestedNode hstate hblock =>
      -- The renumbering leaves the new node in its place, though the graph it owns may move.
      rcases hformed.node_pushNested hstate _ hblock with ⟨pushed, nested, hpushed, hnode⟩
      refine ⟨_, _, rfl, rfl, (contains_node_iff hpushed).mpr ?_, ?_⟩
      · exact (List.getElem?_eq_some_iff.mp hnode).1
      · rw [← Bool.not_eq_true, contains_node_iff hstate]
        exact Nat.lt_irrefl _
  | connectNodes hstate _ _ =>
      refine ⟨_, _, rfl, rfl, (contains_within_iff (state_modifyState hstate _)).mpr ?_, ?_⟩
      · simp [State.pushEdge]
      · rw [← Bool.not_eq_true, contains_within_iff hstate]
        exact Nat.lt_irrefl _
  | connectStates hgraph _ _ =>
      refine ⟨_, _, rfl, rfl, (contains_between_iff (graph_modifyGraph hgraph _)).mpr ?_, ?_⟩
      · simp [Subgraph.pushEdge]
      · rw [← Bool.not_eq_true, contains_between_iff hgraph]
        exact Nat.lt_irrefl _
  | eraseGraph _ _ => cases hadds
  | eraseState _ => cases hadds
  | eraseNode _ => cases hadds
  | eraseWithin _ _ => cases hadds
  | eraseBetween _ _ => cases hadds
  | uninstrument => cases hadds

end Arena

end DataflowEditor
