import DataflowEditor.Proofs.Graph.Effect
import DataflowEditor.Proofs.Graph.Renumber
import Mathlib.Data.List.Flatten

/-! # Edits keep an arena well formed

Most edits leave the nested graphs alone; for those it is enough that the edited container still
owns what it owned and that its edges stay inside. An edit that removes a container leaves a walk
with fewer graphs to meet, and one that adds a nested graph lets it meet a block of new ones; both
are renumbered afterwards. Every run of edits on a decoded arena therefore ends in a well-formed
one, whatever the edits ask for and whether or not they succeed.
-/

namespace DataflowEditor

/-! ## Edges after an edit -/

theorem shiftPlace_lt {removed place next bound : Nat} (h : shiftPlace removed place = some next)
    (hplace : place < bound) (hremoved : removed < bound) : next < bound - 1 := by
  grind [shiftPlace]

/-- What holds of all items holds still if the change of one keeps it. -/
theorem forall_mem_modify {α : Type} {P : α → Prop} {items : List α} {change : α → α} {place : Nat}
    (h : ∀ item ∈ items, P item) (hchange : ∀ item ∈ items, P (change item)) :
    ∀ item ∈ items.modify place change, P item := by
  intro item hitem
  obtain ⟨other, hother⟩ := List.mem_iff_getElem?.mp hitem
  rw [List.getElem?_modify] at hother
  obtain ⟨original, horiginal, rfl⟩ := Option.map_eq_some_iff.mp hother
  have hmem := List.mem_of_getElem? horiginal
  split
  · exact hchange original hmem
  · exact h original hmem

theorem Edge.rename_eq_some {name : Nat → Option Nat} {edge renamed : Edge}
    (h : edge.rename name = some renamed) :
    name edge.source = some renamed.source ∧ name edge.target = some renamed.target := by
  unfold Edge.rename at h
  split at h
  next source target hsource htarget =>
    cases h
    exact ⟨hsource, htarget⟩
  next => cases h

/-- Edges that stay end inside what is left. -/
theorem Edge.rename_inside {removed bound : Nat} {edges : List Edge}
    (h : ∀ edge ∈ edges, edge.source < bound ∧ edge.target < bound) (hremoved : removed < bound) :
    ∀ edge ∈ edges.filterMap (Edge.rename (shiftPlace removed)),
      edge.source < bound - 1 ∧ edge.target < bound - 1 := by
  intro edge hedge
  obtain ⟨original, hmem, hrename⟩ := List.mem_filterMap.mp hedge
  obtain ⟨hsource, htarget⟩ := Edge.rename_eq_some hrename
  obtain ⟨hsourceLt, htargetLt⟩ := h original hmem
  exact ⟨shiftPlace_lt hsource hsourceLt hremoved, shiftPlace_lt htarget htargetLt hremoved⟩

namespace State

variable {state : State}

theorem pushNode_edgesInside (h : state.EdgesInside) (node : Node) :
    (state.pushNode node).EdgesInside := by
  intro edge hedge
  obtain ⟨hsource, htarget⟩ := h edge hedge
  simp only [pushNode, List.length_append, List.length_singleton]
  omega

theorem pushEdge_edgesInside (h : state.EdgesInside) {edge : Edge}
    (hsource : edge.source < state.nodes.length) (htarget : edge.target < state.nodes.length) :
    (state.pushEdge edge).EdgesInside := by
  intro other hother
  rcases List.mem_append.mp hother with hother | hother
  · exact h other hother
  · rw [List.mem_singleton.mp hother]
    exact ⟨hsource, htarget⟩

/-- The edges that are left when a node goes end at the nodes that are left. -/
theorem eraseNode_edgesInside (h : state.EdgesInside) {index : Nat}
    (hindex : index < state.nodes.length) : (state.eraseNode index).EdgesInside := by
  intro edge hedge
  have hinside := Edge.rename_inside h hindex edge hedge
  simpa [eraseNode, List.length_eraseIdx_of_lt hindex] using hinside

theorem eraseEdge_edgesInside (h : state.EdgesInside) (index : Nat) :
    (state.eraseEdge index).EdgesInside :=
  fun edge hedge => h edge (List.mem_of_mem_eraseIdx hedge)

theorem uninstrumented_edgesInside (h : state.EdgesInside) :
    state.uninstrumented.EdgesInside := by
  simpa [EdgesInside, uninstrumented] using h

end State

namespace Subgraph

variable {graph : Subgraph}

theorem pushState_edgesInside (h : graph.EdgesInside) {state : State}
    (hstate : state.EdgesInside) : (graph.pushState state).EdgesInside := by
  refine ⟨?_, ?_⟩
  · intro edge hedge
    obtain ⟨hsource, htarget⟩ := h.between edge hedge
    simp only [pushState, List.length_append, List.length_singleton]
    omega
  · intro other hother
    rcases List.mem_append.mp hother with hother | hother
    · exact h.within other hother
    · rwa [List.mem_singleton.mp hother]

theorem pushEdge_edgesInside (h : graph.EdgesInside) {edge : Edge}
    (hsource : edge.source < graph.states.length) (htarget : edge.target < graph.states.length) :
    (graph.pushEdge edge).EdgesInside := by
  refine ⟨fun other hother => ?_, h.within⟩
  rcases List.mem_append.mp hother with hother | hother
  · exact h.between other hother
  · rw [List.mem_singleton.mp hother]
    exact ⟨hsource, htarget⟩

/-- The edges that are left when a state goes end at the states that are left. -/
theorem eraseState_edgesInside (h : graph.EdgesInside) {place : Nat}
    (hplace : place < graph.states.length) : (graph.eraseState place).EdgesInside := by
  refine ⟨fun edge hedge => ?_, fun state hstate => ?_⟩
  · have hinside := Edge.rename_inside h.between hplace edge hedge
    simpa [eraseState, List.length_eraseIdx_of_lt hplace] using hinside
  · exact h.within state (List.mem_of_mem_eraseIdx hstate)

theorem eraseEdge_edgesInside (h : graph.EdgesInside) (index : Nat) :
    (graph.eraseEdge index).EdgesInside :=
  ⟨fun edge hedge => h.between edge (List.mem_of_mem_eraseIdx hedge), h.within⟩

theorem uninstrumented_edgesInside (h : graph.EdgesInside) :
    graph.uninstrumented.EdgesInside := by
  refine ⟨by simpa [uninstrumented] using h.between, fun state hstate => ?_⟩
  obtain ⟨original, horiginal, rfl⟩ := List.mem_map.mp hstate
  exact State.uninstrumented_edgesInside (h.within original horiginal)

/-- A state changed in place keeps the edges between states inside. -/
theorem modify_edgesInside (h : graph.EdgesInside) {place : Nat} {change : State → State}
    (hchange : ∀ state, graph.states[place]? = some state → (change state).EdgesInside) :
    Subgraph.EdgesInside { graph with states := graph.states.modify place change } := by
  refine ⟨by simpa using h.between, fun state hstate => ?_⟩
  obtain ⟨other, hother⟩ := List.mem_iff_getElem?.mp hstate
  rw [List.getElem?_modify] at hother
  obtain ⟨original, horiginal, rfl⟩ := Option.map_eq_some_iff.mp hother
  by_cases hplace : place = other
  · subst hplace
    simpa using hchange original horiginal
  · simpa [hplace] using h.within original (List.mem_of_getElem? horiginal)

end Subgraph

/-! ## Owners after an edit -/

namespace Arena

/-- The owning nodes of a graph are those of its states, one state after the other. -/
theorem ownersIn_eq_flatten (id : Nat) (graph : Subgraph) :
    ownersIn id graph = (graph.states.mapIdx fun place state =>
      State.ownersFrom id place 0 state.nodes).flatten := by
  rw [ownersIn_eq, Subgraph.ownersFrom, List.mapIdx_eq_zipIdx_map, List.flatMap_def]

/-- A change of a state that keeps its owning nodes keeps those of the graph. -/
theorem ownersIn_modify {id place : Nat} {graph : Subgraph} {change : State → State}
    (h : ∀ state, graph.states[place]? = some state →
      State.ownersFrom id place 0 (change state).nodes =
        State.ownersFrom id place 0 state.nodes) :
    ownersIn id { graph with states := graph.states.modify place change } =
      ownersIn id graph := by
  rw [ownersIn_eq_flatten, ownersIn_eq_flatten]
  congr 1
  apply List.ext_getElem?
  intro other
  rw [List.getElem?_mapIdx, List.getElem?_mapIdx, List.getElem?_modify]
  cases hstate : graph.states[other]? with
  | none => rfl
  | some state =>
      by_cases hplace : place = other
      · subst hplace
        simpa using h state hstate
      · simp [hplace]

theorem ownersIn_pushState {id : Nat} {graph : Subgraph} {state : State}
    (h : state.nodes = []) : ownersIn id (graph.pushState state) = ownersIn id graph := by
  rw [ownersIn_eq_flatten, ownersIn_eq_flatten, Subgraph.pushState, List.mapIdx_concat, h,
    List.flatten_append]
  simp [State.ownersFrom]

/-- A node without a graph of its own changes nothing in who owns what. -/
theorem ownersFrom_pushNode {id place : Nat} {state : State} {node : Node}
    (h : node.nested = none) : State.ownersFrom id place 0 (state.pushNode node).nodes =
      State.ownersFrom id place 0 state.nodes := by
  simp [State.ownersFrom, State.pushNode, List.zipIdx_append, h]

theorem ownersIn_uninstrumented (id : Nat) (graph : Subgraph) :
    ownersIn id graph.uninstrumented = ownersIn id graph := by
  simp only [ownersIn, Subgraph.uninstrumented, State.uninstrumented, List.zipIdx_map,
    List.flatMap_map, List.filterMap_map, Function.comp_def, Prod.map, Node.uninstrumented, id_eq]

variable {arena : Arena}

/-! ## Edits that leave nested graphs alone -/

/-- Graph by graph, the same owners in other containers. -/
theorem WellFormed.of_alike (h : arena.WellFormed) {other : Arena}
    (hlength : other.graphs.length = arena.graphs.length)
    (halike : ∀ id graph, other.graphs[id]? = some graph →
      ∃ original, arena.graphs[id]? = some original ∧ ownersIn id graph = ownersIn id original ∧
        graph.owner = original.owner ∧ graph.EdgesInside) : other.WellFormed := by
  have hsome : ∀ (id : Nat) (original : Subgraph), arena.graphs[id]? = some original →
      ∃ graph, other.graphs[id]? = some graph ∧ graph.owner = original.owner := by
    intro id original horiginal
    have hinside := (List.getElem?_eq_some_iff.mp horiginal).1
    have hgraph := List.getElem?_eq_getElem (hlength.symm ▸ hinside)
    obtain ⟨found, hfound, _, howner, _⟩ := halike id _ hgraph
    obtain rfl := Option.some.inj (hfound.symm.trans horiginal)
    exact ⟨_, hgraph, howner⟩
  -- The walk and the owners see a graph only through the nodes that own something.
  have hchildren : other.childrenAt = arena.childrenAt := by
    funext id
    cases hgraph : other.graphs[id]? with
    | none =>
        have hnone : arena.graphs[id]? = none := by
          rwa [List.getElem?_eq_none_iff, ← hlength, ← List.getElem?_eq_none_iff]
        rw [childrenAt, childrenAt, hgraph, hnone]
    | some graph =>
        obtain ⟨original, horiginal, howners, _⟩ := halike id graph hgraph
        rw [childrenAt, childrenAt, hgraph, horiginal, Option.elim_some, Option.elim_some,
          ← ownersIn_fst id, howners, ownersIn_fst]
  have horder := h.inOrder
  apply InOrder.wellFormed
  rw [hlength]
  refine ⟨hchildren ▸ horder.walk, ?_, ?_, ?_⟩
  · intro root hroot
    have hfound := horder.roots root hroot
    obtain ⟨original, horiginal, howner⟩ := Option.map_eq_some_iff.mp hfound
    obtain ⟨graph, hgraph, hsame⟩ := hsome _ original horiginal
    rw [hgraph, Option.map_some, hsame, howner]
  · intro id hid graph hgraph owner howner
    obtain ⟨original, horiginal, howners, _⟩ := halike id graph hgraph
    have hrecord := horder.owners id hid original horiginal owner (howners ▸ howner)
    rw [recordedOwner_eq_some] at hrecord ⊢
    obtain ⟨owned, howned, hsome'⟩ := Option.map_eq_some_iff.mp hrecord
    obtain ⟨found, hfound, hsame⟩ := hsome _ owned howned
    rw [hfound, Option.map_some, hsame, hsome']
  · intro id _ graph hgraph
    obtain ⟨_, _, _, _, hedges⟩ := halike id graph hgraph
    exact hedges

theorem modifyGraph_getElem? (id : Nat) (change : Subgraph → Subgraph) (other : Nat) :
    (arena.modifyGraph id change).graphs[other]? =
      arena.graphs[other]?.map (if id = other then change else fun graph => graph) := by
  rw [modifyGraph, List.getElem?_modify]
  cases arena.graphs[other]? with
  | none => rfl
  | some graph => by_cases h : id = other <;> simp [h]

theorem modifyState_eq (id place : Nat) (change : State → State) :
    arena.modifyState id place change = arena.modifyGraph id fun graph =>
      { graph with states := graph.states.modify place change } :=
  rfl

/-- What holds of every graph and of what the change makes of it holds after the change. -/
theorem forall_modifyGraph {P : Subgraph → Prop} (h : ∀ graph ∈ arena.graphs, P graph) {id : Nat}
    {change : Subgraph → Subgraph} (hchange : ∀ graph ∈ arena.graphs, P (change graph)) :
    ∀ graph ∈ (arena.modifyGraph id change).graphs, P graph :=
  forall_mem_modify h hchange

/-- What holds of all graphs and states holds still if the change of one state keeps it. -/
theorem forall_modifyState {P : Subgraph → Prop} {Q : State → Prop}
    (h : ∀ graph ∈ arena.graphs, P graph) {id place : Nat} {change : State → State}
    (hstates : ∀ graph, P graph → ∀ state ∈ graph.states, Q state)
    (hchange : ∀ state, Q state → Q (change state))
    (hagain : ∀ graph states, P graph → (∀ state ∈ states, Q state) →
      P { graph with states := states }) :
    ∀ graph ∈ (arena.modifyState id place change).graphs, P graph := by
  refine forall_modifyGraph h fun graph hgraph => hagain graph _ (h graph hgraph) ?_
  have hold := hstates graph (h graph hgraph)
  exact forall_mem_modify hold fun state hstate => hchange state (hold state hstate)

/-- A graph may be changed if it owns what it did and its edges end inside it. -/
theorem WellFormed.modifyGraph (h : arena.WellFormed) {id : Nat} {change : Subgraph → Subgraph}
    (hchange : ∀ graph, arena.graphs[id]? = some graph →
      ownersIn id (change graph) = ownersIn id graph ∧ (change graph).owner = graph.owner ∧
        (change graph).EdgesInside) : (arena.modifyGraph id change).WellFormed := by
  apply h.of_alike (by simp [Arena.modifyGraph])
  intro other graph hgraph
  rw [modifyGraph_getElem?] at hgraph
  obtain ⟨original, horiginal, rfl⟩ := Option.map_eq_some_iff.mp hgraph
  refine ⟨original, horiginal, ?_⟩
  by_cases hid : id = other
  · subst hid
    simpa using hchange original horiginal
  · simpa [hid] using h.edges original (List.mem_of_getElem? horiginal)

/-- A state may be changed if it owns what it did and its edges end inside it. -/
theorem WellFormed.modifyState (h : arena.WellFormed) {id place : Nat} {change : State → State}
    (hchange : ∀ state, arena.state id place = .ok state →
      State.ownersFrom id place 0 (change state).nodes =
        State.ownersFrom id place 0 state.nodes ∧ (change state).EdgesInside) :
    (arena.modifyState id place change).WellFormed := by
  refine h.modifyGraph fun graph hgraph => ⟨ownersIn_modify fun state hstate => ?_, rfl, ?_⟩
  · exact (hchange state (state_eq_ok.mpr ⟨graph, hgraph, hstate⟩)).1
  · apply Subgraph.modify_edgesInside (h.edges graph (List.mem_of_getElem? hgraph))
    exact fun state hstate => (hchange state (state_eq_ok.mpr ⟨graph, hgraph, hstate⟩)).2

theorem WellFormed.state_edgesInside (h : arena.WellFormed) {id place : Nat} {state : State}
    (hstate : arena.state id place = .ok state) : state.EdgesInside := by
  obtain ⟨graph, hgraph, hfound⟩ := state_eq_ok.mp hstate
  exact (h.edges graph (List.mem_of_getElem? hgraph)).within state (List.mem_of_getElem? hfound)

theorem WellFormed.uninstrumented (h : arena.WellFormed) : arena.uninstrumented.WellFormed := by
  apply h.of_alike (by simp [Arena.uninstrumented])
  intro id graph hgraph
  rw [Arena.uninstrumented, List.getElem?_map] at hgraph
  obtain ⟨original, horiginal, rfl⟩ := Option.map_eq_some_iff.mp hgraph
  refine ⟨original, horiginal, ownersIn_uninstrumented id original, rfl, ?_⟩
  exact Subgraph.uninstrumented_edgesInside (h.edges original (List.mem_of_getElem? horiginal))

theorem WellFormed.pushState (h : arena.WellFormed) (id : Nat) (fields : Fields) :
    (arena.modifyGraph id (·.pushState ⟨[], [], fields⟩)).WellFormed := by
  refine h.modifyGraph fun graph hgraph => ⟨ownersIn_pushState rfl, rfl, ?_⟩
  apply Subgraph.pushState_edgesInside (h.edges graph (List.mem_of_getElem? hgraph))
  intro edge hedge
  cases hedge

theorem WellFormed.pushNode (h : arena.WellFormed) (id place : Nat) {node : Node}
    (hnested : node.nested = none) :
    (arena.modifyState id place (·.pushNode node)).WellFormed := by
  refine h.modifyState fun state hstate => ⟨ownersFrom_pushNode hnested, ?_⟩
  exact State.pushNode_edgesInside (h.state_edgesInside hstate) node

/-- An edge may be put between any two nodes of a state. -/
theorem WellFormed.connectNodes (h : arena.WellFormed) {id place source target : Nat}
    {fields : Fields} {state : State} (hstate : arena.state id place = .ok state)
    (hsource : source < state.nodes.length) (htarget : target < state.nodes.length) :
    (arena.modifyState id place (·.pushEdge ⟨source, target, fields⟩)).WellFormed := by
  refine h.modifyState fun other hother => ⟨rfl, ?_⟩
  obtain rfl := Except.ok.inj (hstate.symm.trans hother)
  exact State.pushEdge_edgesInside (h.state_edgesInside hstate) hsource htarget

theorem WellFormed.connectStates (h : arena.WellFormed) {id source target : Nat}
    {fields : Fields} {graph : Subgraph} (hgraph : arena.graphs[id]? = some graph)
    (hsource : source < graph.states.length) (htarget : target < graph.states.length) :
    (arena.modifyGraph id (·.pushEdge ⟨source, target, fields⟩)).WellFormed := by
  refine h.modifyGraph fun other hother => ⟨rfl, rfl, ?_⟩
  obtain rfl := Option.some.inj (hgraph.symm.trans hother)
  exact Subgraph.pushEdge_edgesInside (h.edges graph (List.mem_of_getElem? hgraph)) hsource htarget

theorem WellFormed.eraseWithin (h : arena.WellFormed) (id place index : Nat) :
    (arena.modifyState id place (·.eraseEdge index)).WellFormed :=
  h.modifyState fun _ hstate =>
    ⟨rfl, State.eraseEdge_edgesInside (h.state_edgesInside hstate) index⟩

theorem WellFormed.eraseBetween (h : arena.WellFormed) (id index : Nat) :
    (arena.modifyGraph id (·.eraseEdge index)).WellFormed :=
  h.modifyGraph fun graph hgraph => ⟨rfl, rfl,
    Subgraph.eraseEdge_edgesInside (h.edges graph (List.mem_of_getElem? hgraph)) index⟩

/-! ## Edits that take graphs away -/

/-- What is nested in a graph that is changed, and in any other graph. -/
theorem childrenAt_modifyGraph (id : Nat) (change : Subgraph → Subgraph) (other : Nat) :
    (arena.modifyGraph id change).childrenAt other = arena.graphs[other]?.elim []
      (fun graph => (if id = other then change graph else graph).children) := by
  rw [childrenAt, modifyGraph_getElem?]
  cases arena.graphs[other]? with
  | none => rfl
  | some graph => by_cases h : id = other <;> simp [h]

/-- With some children gone, the graphs below the root still form a tree, and no graph is met out of
order. -/
theorem Reaches.of_children {met : List Nat} (h : arena.Reaches met) {other : Arena}
    (hlength : other.graphs.length = arena.graphs.length)
    (hfewer : ∀ id, (other.childrenAt id).Sublist (arena.childrenAt id)) :
    ∃ kept, kept.Sublist met ∧ other.Reaches kept := by
  obtain ⟨kept, hkept, hwalk⟩ := h.walk.sublist hfewer (List.Sublist.refl [0])
  refine ⟨kept, hkept, hwalk, hkept.nodup h.nodup, fun id hid => ?_⟩
  rw [hlength]
  exact h.inside id (hkept.subset hid)

/-- Where a graph loses children, the walk meets some of the graphs it met before, in their order.
-/
theorem Reaches.modifyGraph {met : List Nat} (h : arena.Reaches met) {id : Nat}
    {change : Subgraph → Subgraph}
    (hchange : ∀ graph, arena.graphs[id]? = some graph →
      (change graph).children.Sublist graph.children) :
    ∃ kept, kept.Sublist met ∧ (arena.modifyGraph id change).Reaches kept := by
  apply h.of_children (by simp [Arena.modifyGraph])
  intro other
  rw [childrenAt_modifyGraph, childrenAt]
  cases hgraph : arena.graphs[other]? with
  | none => exact .slnil
  | some graph =>
      by_cases hid : id = other
      · subst hid
        simpa using hchange graph hgraph
      · simp [hid]

/-- All edges end inside if those of the graph that is changed do. -/
theorem WellFormed.edges_modifyGraph (h : arena.WellFormed) {id : Nat}
    {change : Subgraph → Subgraph}
    (hchange : ∀ graph, arena.graphs[id]? = some graph → (change graph).EdgesInside) {other : Nat}
    (graph : Subgraph) (hgraph : (arena.modifyGraph id change).graphs[other]? = some graph) :
    graph.EdgesInside := by
  rw [modifyGraph_getElem?] at hgraph
  obtain ⟨original, horiginal, rfl⟩ := Option.map_eq_some_iff.mp hgraph
  by_cases hid : id = other
  · subst hid
    simpa using hchange original horiginal
  · simpa [hid] using h.edges original (List.mem_of_getElem? horiginal)

theorem children_eraseState (graph : Subgraph) (place : Nat) :
    (graph.eraseState place).children.Sublist graph.children :=
  (List.eraseIdx_sublist graph.states place).flatMap _

theorem children_modify {graph : Subgraph} {place : Nat} {change : State → State}
    (h : ∀ state, graph.states[place]? = some state →
      ((change state).nodes.filterMap Node.nested).Sublist (state.nodes.filterMap Node.nested)) :
    (Subgraph.children { graph with states := graph.states.modify place change }).Sublist
      graph.children := by
  obtain ⟨states, edges, owner, fields⟩ := graph
  dsimp only [Subgraph.children] at h ⊢
  induction states generalizing place with
  | nil => simp
  | cons first rest ih =>
      cases place with
      | zero =>
          rw [List.modify_zero_cons, List.flatMap_cons, List.flatMap_cons]
          exact (h first rfl).append_right _
      | succ place =>
          rw [List.modify_succ_cons, List.flatMap_cons, List.flatMap_cons]
          exact (ih h).append_left _

theorem nested_eraseNode (state : State) (index : Nat) :
    ((state.eraseNode index).nodes.filterMap Node.nested).Sublist
      (state.nodes.filterMap Node.nested) := by
  rw [State.eraseNode, List.filterMap_map]
  exact (List.eraseIdx_sublist state.nodes index).filterMap Node.nested

/-- After a state is gone the walk meets what is left, in the order it had. -/
theorem WellFormed.reaches_eraseState (h : arena.WellFormed) (id place : Nat) :
    ∃ met, met.Sublist (List.range arena.graphs.length) ∧
      (arena.modifyGraph id (·.eraseState place)).Reaches met :=
  h.reaches.modifyGraph fun graph _ => children_eraseState graph place

/-- After a node is gone the walk meets what is left, in the order it had. -/
theorem WellFormed.reaches_eraseNode (h : arena.WellFormed) (location : Location) :
    ∃ met, met.Sublist (List.range arena.graphs.length) ∧
      (arena.modifyState location.graph location.state (·.eraseNode location.node)).Reaches met :=
  h.reaches.modifyGraph fun _ _ => children_modify fun state _ =>
    nested_eraseNode state location.node

/-- When a state goes, with the graphs in it, the numbers close up. -/
theorem WellFormed.eraseState (h : arena.WellFormed) {id place : Nat} {state : State}
    (hstate : arena.state id place = .ok state) :
    (arena.modifyGraph id (·.eraseState place)).renumber.WellFormed := by
  obtain ⟨met, _, hreach⟩ := h.reaches_eraseState id place
  refine hreach.renumber_wellFormed fun other _ => h.edges_modifyGraph fun graph hgraph => ?_
  obtain ⟨found, hfound, hplace⟩ := state_eq_ok.mp hstate
  obtain rfl := Option.some.inj (hfound.symm.trans hgraph)
  exact Subgraph.eraseState_edgesInside (h.edges found (List.mem_of_getElem? hgraph))
    (List.getElem?_eq_some_iff.mp hplace).1

/-- When a node goes, with the graphs in it, the numbers close up. -/
theorem WellFormed.eraseNode (h : arena.WellFormed) {location : Location} {node : Node}
    (hnode : arena.node location = .ok node) :
    (arena.modifyState location.graph location.state
      (·.eraseNode location.node)).renumber.WellFormed := by
  obtain ⟨met, _, hreach⟩ := h.reaches_eraseNode location
  refine hreach.renumber_wellFormed fun other _ => h.edges_modifyGraph fun graph hgraph => ?_
  obtain ⟨found, state, hfound, hstate, hindex⟩ := node_eq_ok.mp hnode
  have hedges := h.edges graph (List.mem_of_getElem? hgraph)
  apply Subgraph.modify_edgesInside hedges
  intro other hother
  obtain rfl := Option.some.inj (hfound.symm.trans hgraph)
  obtain rfl := Option.some.inj (hstate.symm.trans hother)
  exact State.eraseNode_edgesInside (hedges.within state (List.mem_of_getElem? hstate))
    (List.getElem?_eq_some_iff.mp hindex).1

/-! ## Edits that add graphs -/

/-- Behind the children that the states up to `place` own comes the new one. -/
theorem children_pushNode {graph : Subgraph} {place : Nat} {state : State}
    (hstate : graph.states[place]? = some state) (nested : Nat) (fields : Fields) :
    ∃ front back, graph.children = front ++ back ∧
      Subgraph.children { graph with
        states := graph.states.modify place (·.pushNode ⟨some nested, fields⟩) } =
          front ++ nested :: back := by
  obtain ⟨hplace, rfl⟩ := List.getElem?_eq_some_iff.mp hstate
  let owned (states : List State) : List Nat :=
    states.flatMap fun state => state.nodes.filterMap Node.nested
  refine ⟨owned (graph.states.take (place + 1)), owned (graph.states.drop (place + 1)), ?_, ?_⟩
  · rw [← List.flatMap_append, List.take_append_drop]
    rfl
  · have hsplit : owned (graph.states.take (place + 1)) = owned (graph.states.take place) ++
        graph.states[place].nodes.filterMap Node.nested := by
      dsimp only [owned]
      rw [List.take_succ_eq_append_getElem hplace, List.flatMap_append, List.flatMap_singleton]
    rw [Subgraph.children, List.modify_eq_take_cons_drop hplace, hsplit]
    simp [owned, State.pushNode]

/-- The block of new graphs is met where its owner stands, and the rest as before. -/
theorem WellFormed.reaches_pushNode (h : arena.WellFormed) {id place : Nat} {state : State}
    (hstate : arena.state id place = .ok state) {location : Location} {inner : Fields}
    {block : List Subgraph} (fields : Fields)
    (hblock : Subgraph.decode arena.graphs.length (some location) inner = .ok block) :
    ∃ met, met.Perm (List.range (arena.graphs.length + block.length)) ∧
      ((Arena.mk (arena.graphs ++ block)).modifyState id place
        (·.pushNode ⟨some arena.graphs.length, fields⟩)).Reaches met ∧
      ((Arena.mk (arena.graphs ++ block)).modifyState id place
        (·.pushNode ⟨some arena.graphs.length, fields⟩)).InOrder arena.graphs.length block.length
          [(arena.graphs.length, some location)] := by
  obtain ⟨graph, hgraph, hplace⟩ := state_eq_ok.mp hstate
  have hid := (List.getElem?_eq_some_iff.mp hgraph).1
  rw [modifyState_eq]
  generalize hgrown : (Arena.mk (arena.graphs ++ block)).modifyGraph id _ = grown
  -- Of the graphs that were there only the edited one has another child.
  have hold : ∀ other < arena.graphs.length, id ≠ other →
      grown.childrenAt other = arena.childrenAt other := by
    intro other hother hne
    rw [← hgrown, childrenAt_modifyGraph, childrenAt, List.getElem?_append_left hother]
    simp [hne]
  have hinOrder : grown.InOrder arena.graphs.length block.length
      [(arena.graphs.length, some location)] := by
    refine Subgraph.decode_inOrder hblock ⟨[], ?_⟩
    rw [← hgrown, Arena.modifyGraph, List.drop_modify_of_lt _ _ _ _ hid]
    simp
  obtain ⟨front, back, hparent, hmore⟩ := children_pushNode hplace arena.graphs.length fields
  obtain ⟨met, hwalk, hperm⟩ := h.preorder.insert
    (show arena.childrenAt id = front ++ back by simp [childrenAt, hgraph, hparent])
    (show grown.childrenAt id = front ++ arena.graphs.length :: back by
      rw [← hgrown, childrenAt_modifyGraph, List.getElem?_append_left hid, hgraph]
      simpa using hmore)
    (fun other hother hne => hold other (List.mem_range.mp hother) hne.symm) hinOrder.walk
  rw [List.count_eq_one_of_mem List.nodup_range (List.mem_range.mpr hid), List.replicate_one,
    List.flatten_singleton, List.range_eq_range'] at hperm
  have hrange : met.Perm (List.range (arena.graphs.length + block.length)) := by
    have happend := List.range'_append_1 (s := 0) (m := arena.graphs.length) (n := block.length)
    rw [Nat.zero_add] at happend
    rwa [happend, ← List.range_eq_range'] at hperm
  refine ⟨met, hrange, ⟨hwalk, hrange.nodup_iff.mpr List.nodup_range, fun other hother => ?_⟩,
    hinOrder⟩
  have hmem := List.mem_range.mp (hrange.mem_iff.mp hother)
  rw [← hgrown]
  simpa [Arena.modifyGraph] using hmem

/-- Graphs up to the one that gets a new node keep their names, because the walk meets them
first. -/
theorem WellFormed.idxOf_pushNode (h : arena.WellFormed) {id place nested : Nat} {graph : Subgraph}
    (hgraph : arena.graphs[id]? = some graph) {block : List Subgraph} {fields : Fields}
    {met : List Nat} (hreach : ((Arena.mk (arena.graphs ++ block)).modifyState id place
      (·.pushNode ⟨some nested, fields⟩)).Reaches met) {other : Nat} (hother : other ≤ id) :
    other ∈ met ∧ met.idxOf other = other := by
  have hid := (List.getElem?_eq_some_iff.mp hgraph).1
  have hrange : List.range arena.graphs.length =
      List.range id ++ id :: (List.range' (id + 1) (arena.graphs.length - id - 1)) := by
    have hsplit := List.range'_append_1 (s := 0) (m := id) (n := arena.graphs.length - id)
    rw [Nat.zero_add, Nat.add_sub_cancel' hid.le] at hsplit
    rw [List.range_eq_range', ← hsplit, List.range_eq_range',
      show arena.graphs.length - id = arena.graphs.length - id - 1 + 1 by omega,
      List.range'_succ, Nat.add_sub_cancel]
  have hwalk := h.preorder
  rw [hrange] at hwalk
  obtain ⟨rest, rfl⟩ := hwalk.front_of_agree hreach.walk fun front hfront => by
    have hlt := List.mem_range.mp hfront
    rw [modifyState_eq, childrenAt_modifyGraph, childrenAt,
      List.getElem?_append_left (hlt.trans hid)]
    simp [show id ≠ front by omega]
  have hplace : (List.range id ++ id :: rest)[other]? = some other := by
    rcases Nat.lt_or_eq_of_le hother with hlt | rfl
    · rw [List.getElem?_append_left (by simpa using hlt), List.getElem?_range hlt]
    · rw [List.getElem?_append_right (by simp)]
      simp
  obtain ⟨hinside, hvalue⟩ := List.getElem?_eq_some_iff.mp hplace
  have hindex := hreach.nodup.idxOf_getElem other hinside
  rw [hvalue] at hindex
  exact ⟨List.mem_of_getElem? hplace, hindex⟩

/-- A new node may bring a whole block of graphs, which get their numbers behind its own graph. -/
theorem WellFormed.pushNestedNode (h : arena.WellFormed) {id place : Nat} {state : State}
    (hstate : arena.state id place = .ok state) {location : Location} {inner : Fields}
    {block : List Subgraph} (fields : Fields)
    (hblock : Subgraph.decode arena.graphs.length (some location) inner = .ok block) :
    ((Arena.mk (arena.graphs ++ block)).modifyState id place
      (·.pushNode ⟨some arena.graphs.length, fields⟩)).renumber.WellFormed := by
  obtain ⟨met, hperm, hreach, hinOrder⟩ := h.reaches_pushNode hstate fields hblock
  apply hreach.renumber_wellFormed
  intro other hother graph hgraph
  by_cases hnew : other < arena.graphs.length
  · rw [modifyState_eq, modifyGraph_getElem?, List.getElem?_append_left hnew] at hgraph
    obtain ⟨original, horiginal, rfl⟩ := Option.map_eq_some_iff.mp hgraph
    have hedges := h.edges original (List.mem_of_getElem? horiginal)
    by_cases hid : id = other
    · simp only [hid, if_true]
      apply Subgraph.modify_edgesInside hedges
      intro state hfound
      exact State.pushNode_edgesInside (hedges.within state (List.mem_of_getElem? hfound)) _
    · simpa [hid] using hedges
  · have hmem := List.mem_range.mp (hperm.mem_iff.mp hother)
    exact hinOrder.edges other (List.mem_range'_1.mpr (by omega)) graph hgraph

/-! ## Runs of edits -/

theorem WellFormed.effect (h : arena.WellFormed) {edit : Edit} {result : Arena}
    {place : Option Nat} (heffect : arena.Effect edit result place) : result.WellFormed := by
  cases heffect with
  | pushState _ => exact h.pushState _ _
  | pushNode _ hnested => exact h.pushNode _ _ hnested
  | pushNestedNode hstate hblock => exact h.pushNestedNode hstate _ hblock
  | connectNodes hstate hsource htarget => exact h.connectNodes hstate hsource htarget
  | connectStates hgraph hsource htarget => exact h.connectStates hgraph hsource htarget
  | eraseGraph _ hnode => exact h.eraseNode hnode
  | eraseState hstate => exact h.eraseState hstate
  | eraseNode hnode => exact h.eraseNode hnode
  | eraseWithin _ _ => exact h.eraseWithin _ _ _
  | eraseBetween _ _ => exact h.eraseBetween _ _
  | uninstrument => exact h.uninstrumented

/-- What an erasure preserves. -/
theorem WellFormed.erase (h : arena.WellFormed) {element : Element} {result : Arena}
    (herase : arena.erase element = .ok result) : result.WellFormed :=
  h.effect (erase_effect herase)

theorem WellFormed.afterEdit (h : arena.WellFormed) (edit : Edit) :
    (arena.afterEdit edit).WellFormed := by
  unfold Arena.afterEdit
  split
  next result place hedit => exact h.effect (edit_effect hedit)
  next => exact h

/-- What a run of edits preserves, by induction on the edits. -/
theorem WellFormed.afterEdits (h : arena.WellFormed) (edits : List Edit) :
    (arena.afterEdits edits).WellFormed := by
  induction edits generalizing arena with
  | nil => exact h
  | cons edit rest ih => exact ih (h.afterEdit edit)

/-- An arena is well formed after every call of a run of edits that starts with the arena of a
document, whether the calls succeed or fail. -/
theorem reachable_wellFormed {document : Json} (hdocument : ofJson document = .ok arena)
    (edits : List Edit) : (arena.afterEdits edits).WellFormed :=
  (ofJson_wellFormed hdocument).afterEdits edits

/-- A graph with a node that owns a graph, beside another node and an edge between the two. -/
def nestedDocument : Json :=
  .obj [("type", .str "SDFG"), ("start_state", .nat 0), ("nodes", .arr [
    .obj [("nodes", .arr [
      .obj [("type", .str "NestedSDFG"), ("attributes", .obj [("sdfg", .obj [
        ("nodes", .arr [.obj []])])])],
      .obj [("type", .str "Tasklet"), ("scope_entry", .str "0")]]),
      ("edges", .arr [.obj [("src", .str "0"), ("dst", .nat 1)]])]])]

def nestedArena : Arena :=
  ⟨[⟨[⟨[⟨some 1, [("type", .str "NestedSDFG"), ("attributes", .obj [])]⟩,
      ⟨none, [("type", .str "Tasklet"), ("scope_entry", .str "0")]⟩], [⟨0, 1, []⟩], []⟩], [], none,
      [("type", .str "SDFG"), ("start_state", .nat 0)]⟩,
    ⟨[⟨[], [], []⟩], [], some ⟨0, 0, 0⟩, []⟩]⟩

/-- Add a nested graph in front of another, fail to connect a node that is not there, and remove the
node that owns the first graph. -/
def nestedEdits : List Edit :=
  [.pushState 1 [], .pushNestedNode 0 0 [("type", .str "NestedSDFG")] nestedDocument,
    .connectNodes 0 0 1 7 [], .erase (.node 0 0 0), .uninstrument]

theorem ofJson_nestedDocument : ofJson nestedDocument = .ok nestedArena := by
  decide

/-- The arena of the example stays well formed through edits of all kinds. -/
theorem nestedEdits_wellFormed : ofJson nestedDocument = .ok nestedArena ∧
    (nestedArena.afterEdits nestedEdits).WellFormed :=
  ⟨ofJson_nestedDocument, reachable_wellFormed ofJson_nestedDocument nestedEdits⟩

end Arena

end DataflowEditor
