import DataflowEditor.Proofs.Graph.Survivors
import Mathlib.Data.List.InsertIdx

/-! # Pruned graphs

An element is detached by changing the graph it lies in, without a look at the graphs that it owned.
Pruning a graph takes any number of elements out of it at once. If nothing at or below the place of
an element is gone, detaching it from the pruned graph is the same as pruning it with the others. So
a list of elements in a suitable order is detached one by one as it is pruned.
-/

namespace DataflowEditor

/-- One more element is gone. -/
def orElement (gone : Element → Bool) (removed element : Element) : Bool :=
  gone element || decide (element = removed)

/-- The state without what is gone of it. References to nodes follow. -/
def State.pruned (gone : Element → Bool) (id place : Nat) (state : State) : State :=
  let name := lowerPlace fun index => gone (.node id place index)
  { state with
    nodes := (keep (fun index => gone (.node id place index)) state.nodes).map
      (Node.renameScope name),
    edges := (keep (fun index => gone (.edge id (some place) index)) state.edges).filterMap
      (Edge.rename name) }

/-- The graph without what is gone of it. References to states follow. -/
def Subgraph.pruned (gone : Element → Bool) (id : Nat) (graph : Subgraph) : Subgraph :=
  let name := lowerPlace fun place => gone (.state id place)
  { graph with
    states := keep (fun place => gone (.state id place))
      (graph.states.mapIdx (State.pruned gone id)),
    edges := (keep (fun index => gone (.edge id none index)) graph.edges).filterMap
      (Edge.rename name),
    fields := graph.fields.renameIndex "start_state" name none }

/-- Every graph without what is gone of it. Graphs stay where they are. -/
def Arena.pruned (arena : Arena) (gone : Element → Bool) : Arena :=
  ⟨arena.graphs.mapIdx (Subgraph.pruned gone)⟩

/-- Take an element out of the graph it lies in. -/
def Subgraph.detach (graph : Subgraph) : Element → Subgraph
  | .graph _ => graph
  | .state _ place => graph.eraseState place
  | .node _ place index =>
    { graph with states := graph.states.modify place (·.eraseNode index) }
  | .edge _ (some place) index =>
    { graph with states := graph.states.modify place (·.eraseEdge index) }
  | .edge _ none index => graph.eraseEdge index

def Arena.detach (arena : Arena) (element : Element) : Arena :=
  arena.modifyGraph element.graphIndex (·.detach element)

/-- Nothing is gone that an element stands on or behind: no sibling at its place or below, and no
container or end that its own place is counted in. -/
def Element.InPlace (gone : Element → Bool) : Element → Prop
  | .graph _ => False
  | .state id place => ∀ below ≤ place, gone (.state id below) = false
  | .node id place index =>
    (∀ other, gone (.state id other) = false) ∧ ∀ below ≤ index, gone (.node id place below) = false
  | .edge id (some place) index =>
    (∀ other, gone (.state id other) = false) ∧ (∀ other, gone (.node id place other) = false) ∧
      ∀ below ≤ index, gone (.edge id (some place) below) = false
  | .edge id none index =>
    (∀ other, gone (.state id other) = false) ∧
      ∀ below ≤ index, gone (.edge id none below) = false

variable {gone other : Element → Bool} {id place index : Nat}

/-! ## States -/

/-- Erasing a node in front of those that are gone is pruning it with them. -/
theorem State.eraseNode_pruned (h : ∀ below ≤ index, gone (.node id place below) = false)
    (state : State) : (state.pruned gone id place).eraseNode index =
      state.pruned (orElement gone (.node id place index)) id place := by
  -- The element that goes counts for the places of its own kind and for no others.
  have hname : (fun next => orElement gone (.node id place index) (.node id place next)) =
      orPlace (fun next => gone (.node id place next)) index := by
    funext next
    simp [orElement, orPlace]
  have hedge : (fun next => orElement gone (.node id place index) (.edge id (some place) next)) =
      fun next => gone (.edge id (some place) next) := by
    funext next
    simp [orElement]
  rw [pruned, pruned, eraseNode, State.mk.injEq]
  dsimp only
  rw [hname, hedge, List.eraseIdx_map, ← keep_orPlace h, List.map_map, filterMap_rename_orPlace h]
  refine ⟨List.map_congr_left fun node _ => ?_, rfl, rfl⟩
  exact Node.renameScope_orPlace h node

theorem State.eraseEdge_pruned (hnodes : ∀ other, gone (.node id place other) = false)
    (h : ∀ below ≤ index, gone (.edge id (some place) below) = false) (state : State) :
    (state.pruned gone id place).eraseEdge index =
      state.pruned (orElement gone (.edge id (some place) index)) id place := by
  have hname : (fun next => orElement gone (.edge id (some place) index) (.node id place next)) =
      fun next => gone (.node id place next) := by
    funext next
    simp [orElement]
  have hedge : (fun next => orElement gone (.edge id (some place) index)
      (.edge id (some place) next)) =
        orPlace (fun next => gone (.edge id (some place) next)) index := by
    funext next
    simp [orElement, orPlace]
  rw [pruned, pruned, eraseEdge, State.mk.injEq]
  dsimp only
  rw [hname, hedge, lowerPlace_of_none hnodes, Edge.rename_some, List.filterMap_some,
    List.filterMap_some, keep_orPlace h]
  exact ⟨rfl, rfl, rfl⟩

/-- Pruning a state looks at the tests for its own nodes and edges only. -/
theorem State.pruned_congr (hnodes : ∀ index, gone (.node id place index) =
    other (.node id place index)) (hedges : ∀ index, gone (.edge id (some place) index) =
      other (.edge id (some place) index)) (state : State) :
    state.pruned gone id place = state.pruned other id place := by
  simp only [pruned, hnodes, hedges]

/-! ## Graphs -/

namespace Subgraph

theorem pruned_congr (h : ∀ element : Element, element.graphIndex = id →
    gone element = other element) (graph : Subgraph) :
    graph.pruned gone id = graph.pruned other id := by
  have hstate : State.pruned gone id = State.pruned other id := by
    funext place state
    exact state.pruned_congr (fun index => h _ rfl) (fun index => h _ rfl)
  simp only [pruned, hstate, fun place => h (.state id place) rfl,
    fun index => h (.edge id none index) rfl]

/-- In a graph that loses no state, every state stays where it is. -/
theorem states_pruned (h : ∀ other, gone (.state id other) = false) (graph : Subgraph)
    (place : Nat) : (graph.pruned gone id).states[place]? =
      graph.states[place]?.map (State.pruned gone id place) := by
  rw [pruned]
  dsimp only
  rw [keep_of_none h, List.getElem?_mapIdx]

/-- A graph that loses no state, with one of its states changed. -/
theorem modify_pruned (hstates : ∀ other, gone (.state id other) = false)
    {element : Element} (hplace : element.graphIndex = id ∧ element.statePlace = some place)
    (hstate : ∀ other, element ≠ .state id other) {change : State → State}
    (hchange : ∀ state : State, change (state.pruned gone id place) =
      state.pruned (orElement gone element) id place) (graph : Subgraph) :
    ({ graph.pruned gone id with
        states := (graph.pruned gone id).states.modify place change } : Subgraph) =
      graph.pruned (orElement gone element) id := by
  have hstates' : ∀ other, orElement gone element (.state id other) = false := by
    intro other
    simp [orElement, hstates other, Ne.symm (hstate other)]
  have hedges : ∀ index, orElement gone element (.edge id none index) =
      gone (.edge id none index) := by
    intro index
    have hne : Element.edge id none index ≠ element := by
      rintro rfl
      cases hplace.2
    simp [orElement, hne]
  rw [pruned, pruned, Subgraph.mk.injEq]
  simp only [hedges, keep_of_none hstates, keep_of_none hstates', lowerPlace_of_none hstates,
    lowerPlace_of_none hstates', and_true]
  apply List.ext_getElem?
  intro next
  rw [List.getElem?_modify, List.getElem?_mapIdx, List.getElem?_mapIdx]
  cases graph.states[next]? with
  | none => rfl
  | some state =>
      by_cases hnext : place = next
      · subst hnext
        simp [hchange]
      -- The element lies in another state, so that nothing more is gone from this one.
      · have hothers : ∀ inner : Element, inner.statePlace = some next →
            orElement gone element inner = gone inner := by
          intro inner hinner
          have hne : inner ≠ element := by
            rintro rfl
            exact hnext (Option.some.inj (hplace.2.symm.trans hinner))
          simp [orElement, hne]
        have hsame : state.pruned gone id next = state.pruned (orElement gone element) id next :=
          state.pruned_congr (fun index => (hothers _ rfl).symm) fun index => (hothers _ rfl).symm
        simp [hnext, hsame]

/-- Erasing a state in front of those that are gone is pruning it with them. -/
theorem eraseState_pruned (h : ∀ below ≤ place, gone (.state id below) = false)
    (graph : Subgraph) : (graph.pruned gone id).eraseState place =
      graph.pruned (orElement gone (.state id place)) id := by
  have hname : (fun next => orElement gone (.state id place) (.state id next)) =
      orPlace (fun next => gone (.state id next)) place := by
    funext next
    simp [orElement, orPlace]
  have hedge : (fun next => orElement gone (.state id place) (.edge id none next)) =
      fun next => gone (.edge id none next) := by
    funext next
    simp [orElement]
  have hstate : State.pruned (orElement gone (.state id place)) id = State.pruned gone id := by
    funext next state
    exact state.pruned_congr (fun index => by simp [orElement]) fun index => by simp [orElement]
  rw [pruned, pruned, eraseState, Subgraph.mk.injEq]
  dsimp only
  rw [hname, hedge, hstate, keep_orPlace h, filterMap_rename_orPlace h,
    Fields.renameIndex_orPlace h _ _ fun value hvalue => by cases hvalue]
  exact ⟨rfl, rfl, rfl, rfl⟩

/-- And so with the edges between states, as long as no state is gone. -/
theorem eraseEdge_pruned (hstates : ∀ other, gone (.state id other) = false)
    (h : ∀ below ≤ index, gone (.edge id none below) = false) (graph : Subgraph) :
    (graph.pruned gone id).eraseEdge index =
      graph.pruned (orElement gone (.edge id none index)) id := by
  have hname : (fun next => orElement gone (.edge id none index) (.state id next)) =
      fun next => gone (.state id next) := by
    funext next
    simp [orElement]
  have hedge : (fun next => orElement gone (.edge id none index) (.edge id none next)) =
      orPlace (fun next => gone (.edge id none next)) index := by
    funext next
    simp [orElement, orPlace]
  have hstate : State.pruned (orElement gone (.edge id none index)) id = State.pruned gone id := by
    funext next state
    exact state.pruned_congr (fun index => by simp [orElement]) fun index => by simp [orElement]
  rw [pruned, pruned, eraseEdge, Subgraph.mk.injEq]
  dsimp only
  rw [hname, hedge, hstate, lowerPlace_of_none hstates, Edge.rename_some, List.filterMap_some,
    List.filterMap_some, keep_orPlace h]
  exact ⟨rfl, rfl, rfl, rfl⟩

/-- An element whose place nothing has moved is detached as it would be pruned. -/
theorem detach_pruned {element : Element} (h : element.InPlace gone) (graph : Subgraph) :
    (graph.pruned gone element.graphIndex).detach element =
      graph.pruned (orElement gone element) element.graphIndex := by
  cases element with
  | graph id => cases h
  | state id place => exact eraseState_pruned h graph
  | node id place index =>
      exact modify_pruned h.1 ⟨rfl, rfl⟩ (by simp) (State.eraseNode_pruned h.2) graph
  | edge id place index =>
      cases place with
      | none => exact eraseEdge_pruned h.1 h.2 graph
      | some place =>
          exact modify_pruned h.1 ⟨rfl, rfl⟩ (by simp) (State.eraseEdge_pruned h.2.1 h.2.2) graph

end Subgraph

/-! ## Arenas -/

namespace Arena

variable {arena : Arena}

theorem pruned_getElem? (gone : Element → Bool) (id : Nat) : (arena.pruned gone).graphs[id]? =
    arena.graphs[id]?.map (Subgraph.pruned gone id) := by
  rw [pruned, List.getElem?_mapIdx]

theorem pruned_length (gone : Element → Bool) :
    (arena.pruned gone).graphs.length = arena.graphs.length := by
  rw [pruned, List.length_mapIdx]

/-- Detaching the next element in order is pruning it with the others. -/
theorem detach_pruned {element : Element} (h : element.InPlace gone) :
    (arena.pruned gone).detach element = arena.pruned (orElement gone element) := by
  suffices hgraphs : ((arena.pruned gone).detach element).graphs =
      (arena.pruned (orElement gone element)).graphs from congrArg Arena.mk hgraphs
  apply List.ext_getElem?
  intro id
  rw [detach, modifyGraph_getElem?, pruned_getElem?, pruned_getElem?]
  cases arena.graphs[id]? with
  | none => rfl
  | some graph =>
      by_cases hid : element.graphIndex = id
      · subst hid
        simp [Subgraph.detach_pruned h]
      · have hsame : graph.pruned gone id = graph.pruned (orElement gone element) id := by
          apply graph.pruned_congr
          intro inner hinner
          have hne : inner ≠ element := by
            rintro rfl
            exact hid hinner
          simp [orElement, hne]
        simp [hid, hsame]

theorem pruned_of_none (h : ∀ element, gone element = false) : arena.pruned gone = arena := by
  suffices hgraphs : (arena.pruned gone).graphs = arena.graphs from congrArg Arena.mk hgraphs
  apply List.ext_getElem?
  intro id
  rw [pruned_getElem?]
  cases arena.graphs[id]? with
  | none => rfl
  | some graph =>
      have hstate : ∀ place (state : State), state.pruned gone id place = state := by
        intro place state
        simp only [State.pruned, keep_of_none fun index => h (.node id place index),
          keep_of_none fun index => h (.edge id (some place) index),
          lowerPlace_of_none fun index => h (.node id place index), Edge.rename_some,
          List.filterMap_some, Node.renameScope_some, List.map_id]
      have hstates : graph.states.mapIdx (State.pruned gone id) = graph.states := by
        apply List.ext_getElem?
        intro place
        rw [List.getElem?_mapIdx]
        cases graph.states[place]? with
        | none => rfl
        | some state => exact congrArg some (hstate place state)
      rw [Option.map_some, Option.some.injEq]
      simp only [Subgraph.pruned, hstates, keep_of_none fun place => h (.state id place),
        keep_of_none fun index => h (.edge id none index),
        lowerPlace_of_none fun place => h (.state id place), Edge.rename_some,
        List.filterMap_some, Fields.renameIndex_some]

end Arena

end DataflowEditor
