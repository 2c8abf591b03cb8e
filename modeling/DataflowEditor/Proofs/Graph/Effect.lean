import DataflowEditor.Graph.Edit
import DataflowEditor.Proofs.Graph.Decoding

/-! # Effects of edits

What an edit makes of an arena is told here once: which element it looked for, what it asked of it,
and which container it changed. Invariants are proved along these cases and do not open the edits
again.
-/

namespace DataflowEditor.Arena

/-- The arena that an edit leaves when it succeeds, and the place that it answers. -/
inductive Effect (arena : Arena) : Edit → Arena → Option Nat → Prop
  | pushState {id : Nat} {fields : Fields} {graph : Subgraph} :
      arena.graphs[id]? = some graph →
      Effect arena (.pushState id fields) (arena.modifyGraph id (·.pushState ⟨[], [], fields⟩))
        (some graph.states.length)
  | pushNode {id place : Nat} {node : Node} {state : State} :
      arena.state id place = .ok state → node.nested = none →
      Effect arena (.pushNode id place node) (arena.modifyState id place (·.pushNode node))
        (some state.nodes.length)
  | pushNestedNode {id place : Nat} {fields inner : Fields} {state : State}
      {block : List Subgraph} :
      arena.state id place = .ok state →
      Subgraph.decode arena.graphs.length (some ⟨id, place, state.nodes.length⟩) inner =
        .ok block →
      Effect arena (.pushNestedNode id place fields (.obj inner))
        ((Arena.mk (arena.graphs ++ block)).modifyState id place
          (·.pushNode ⟨some arena.graphs.length, fields⟩)).renumber
        (some state.nodes.length)
  | connectNodes {id place source target : Nat} {fields : Fields} {state : State} :
      arena.state id place = .ok state →
      source < state.nodes.length → target < state.nodes.length →
      Effect arena (.connectNodes id place source target fields)
        (arena.modifyState id place (·.pushEdge ⟨source, target, fields⟩))
        (some state.edges.length)
  | connectStates {id source target : Nat} {fields : Fields} {graph : Subgraph} :
      arena.graphs[id]? = some graph →
      source < graph.states.length → target < graph.states.length →
      Effect arena (.connectStates id source target fields)
        (arena.modifyGraph id (·.pushEdge ⟨source, target, fields⟩)) (some graph.edges.length)
  | eraseGraph {id : Nat} {owner : Location} {node : Node} :
      arena.recordedOwner id = some owner → arena.node owner = .ok node →
      Effect arena (.erase (.graph id))
        (arena.modifyState owner.graph owner.state (·.eraseNode owner.node)).renumber none
  | eraseState {id place : Nat} {state : State} :
      arena.state id place = .ok state →
      Effect arena (.erase (.state id place)) (arena.modifyGraph id (·.eraseState place)).renumber
        none
  | eraseNode {location : Location} {node : Node} :
      arena.node location = .ok node →
      Effect arena (.erase (.ofLocation location))
        (arena.modifyState location.graph location.state (·.eraseNode location.node)).renumber none
  | eraseWithin {id place index : Nat} {state : State} :
      arena.state id place = .ok state → index < state.edges.length →
      Effect arena (.erase (.edge id (some place) index))
        (arena.modifyState id place (·.eraseEdge index)) none
  | eraseBetween {id index : Nat} {graph : Subgraph} :
      arena.graphs[id]? = some graph → index < graph.edges.length →
      Effect arena (.erase (.edge id none index)) (arena.modifyGraph id (·.eraseEdge index)) none
  | uninstrument : Effect arena .uninstrument arena.uninstrumented none

variable {arena : Arena}

theorem placed_eq_ok {outcome : Except GraphError (Arena × Nat)} {result : Arena}
    {place : Option Nat} (h : outcome.map Edit.placed = .ok (result, place)) :
    ∃ index, outcome = .ok (result, index) ∧ place = some index := by
  cases outcome with
  | error => cases h
  | ok pair =>
      cases h
      exact ⟨pair.2, rfl, rfl⟩

theorem erase_effect {element : Element} {result : Arena} (h : arena.erase element = .ok result) :
    arena.Effect (.erase element) result none := by
  cases element with
  | graph id =>
      obtain ⟨_, _, h⟩ := bind_eq_ok.mp h
      cases howner : arena.recordedOwner id with
      | none => simp [howner] at h
      | some owner =>
          rw [howner] at h
          -- The owner is looked up by its record, and only then found to be there.
          obtain ⟨node, hnode, h⟩ := bind_eq_ok.mp h
          cases h
          exact .eraseGraph howner hnode
  | state id place =>
      obtain ⟨state, hstate, h⟩ := bind_eq_ok.mp h
      cases h
      exact .eraseState hstate
  | node id place index =>
      obtain ⟨node, hnode, h⟩ := bind_eq_ok.mp h
      cases h
      exact .eraseNode hnode
  | edge id place index =>
      cases place with
      | some place =>
          obtain ⟨state, hstate, h⟩ := bind_eq_ok.mp h
          split at h
          next hindex =>
            cases h
            exact .eraseWithin hstate hindex
          next => cases h
      | none =>
          obtain ⟨graph, hgraph, h⟩ := bind_eq_ok.mp h
          split at h
          next hindex =>
            cases h
            exact .eraseBetween (graph_eq_ok.mp hgraph) hindex
          next => cases h

/-- An edit that succeeds has one of the effects. -/
theorem edit_effect {edit : Edit} {result : Arena} {place : Option Nat}
    (hedit : arena.edit edit = .ok (result, place)) : arena.Effect edit result place := by
  cases edit with
  | pushState id fields =>
      obtain ⟨index, h, rfl⟩ := placed_eq_ok hedit
      obtain ⟨graph, hgraph, h⟩ := bind_eq_ok.mp h
      cases h
      exact .pushState (graph_eq_ok.mp hgraph)
  | pushNode id place node =>
      obtain ⟨index, h, rfl⟩ := placed_eq_ok hedit
      unfold Arena.pushNode at h
      split at h
      · cases h
      next hnested =>
        -- What is left of the guard is that the node nests nothing.
        obtain ⟨state, hstate, h⟩ := bind_eq_ok.mp h
        cases h
        exact .pushNode hstate (by simpa using hnested)
  | pushNestedNode id place fields document =>
      obtain ⟨index, h, rfl⟩ := placed_eq_ok hedit
      obtain ⟨state, hstate, h⟩ := bind_eq_ok.mp h
      obtain ⟨inner, hinner, h⟩ := bind_eq_ok.mp h
      obtain ⟨block, hblock, h⟩ := bind_eq_ok.mp h
      cases h
      rw [Part.fields_eq_ok.mp hinner]
      exact .pushNestedNode hstate hblock
  | connectNodes id place source target fields =>
      obtain ⟨index, h, rfl⟩ := placed_eq_ok hedit
      obtain ⟨state, hstate, h⟩ := bind_eq_ok.mp h
      dsimp only at h
      split at h
      next hbound =>
        cases h
        exact .connectNodes hstate hbound.1 hbound.2
      next => cases h
  | connectStates id source target fields =>
      obtain ⟨index, h, rfl⟩ := placed_eq_ok hedit
      obtain ⟨graph, hgraph, h⟩ := bind_eq_ok.mp h
      dsimp only at h
      split at h
      next hbound =>
        cases h
        exact .connectStates (graph_eq_ok.mp hgraph) hbound.1 hbound.2
      next => cases h
  | erase element =>
      cases herase : arena.erase element with
      | error => simp [Arena.edit, herase, Except.map] at hedit
      | ok erased =>
          simp only [Arena.edit, herase, Except.map] at hedit
          cases hedit
          exact erase_effect herase
  | uninstrument =>
      cases hedit
      exact .uninstrument

end DataflowEditor.Arena
