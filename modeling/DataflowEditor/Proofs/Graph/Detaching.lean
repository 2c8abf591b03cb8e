import DataflowEditor.Proofs.Graph.Containment
import DataflowEditor.Proofs.Graph.Pruning

/-! # Erasing and detaching

To erase a live element is to detach it and to renumber the arena. Between two erasures the arena is
renumbered as well, but that does not matter: as long as the graph of an element keeps its name,
detaching the element from the renumbered arena leaves the same graphs to be met as detaching it
from the arena before, up to their names.
-/

namespace DataflowEditor

/-! ## Elements of one graph -/

/-- The graph has a live element at that place. -/
def Subgraph.Has (graph : Subgraph) : Element → Prop
  | .graph _ => True
  | .state _ place => place < graph.states.length
  | .node _ place index =>
    ∃ state, graph.states[place]? = some state ∧ index < state.nodes.length
  | .edge _ (some place) index =>
    ∃ state, graph.states[place]? = some state ∧ index < state.edges.length
  | .edge _ none index => index < graph.edges.length

namespace Subgraph.Has

variable {graph : Subgraph} {element : Element}

/-- An element whose place nothing has moved is still there after the others are gone. -/
theorem pruned {gone : Element → Bool} (h : graph.Has element) (hplace : element.InPlace gone) :
    (graph.pruned gone element.graphIndex).Has element := by
  cases element with
  | graph id => trivial
  | state id place =>
      apply lt_length_keep hplace
      rwa [List.length_mapIdx]
  | node id place index =>
      obtain ⟨state, hstate, hindex⟩ := h
      refine ⟨state.pruned gone id place, ?_, ?_⟩
      · exact (states_pruned hplace.1 graph place).trans (congrArg _ hstate)
      · rw [State.pruned, List.length_map]
        exact lt_length_keep hplace.2 hindex
  | edge id place index =>
      cases place with
      | none =>
          change index < (graph.pruned gone id).edges.length
          rw [Subgraph.pruned, lowerPlace_of_none hplace.1, Edge.rename_some, List.filterMap_some]
          exact lt_length_keep hplace.2 h
      | some place =>
          obtain ⟨state, hstate, hindex⟩ := h
          refine ⟨state.pruned gone id place, ?_, ?_⟩
          · exact (states_pruned hplace.1 graph place).trans (congrArg _ hstate)
          · rw [State.pruned, lowerPlace_of_none hplace.2.1, Edge.rename_some,
              List.filterMap_some]
            exact lt_length_keep hplace.2.2 hindex

/-- Renaming the nested graphs leaves the elements of a graph where they are. -/
theorem renamed (h : graph.Has element) (rename : Nat → Option Nat) (owner : Option Location) :
    Subgraph.Has { Arena.renameNested rename graph with owner := owner } element := by
  cases element with
  | graph id => trivial
  | state id place => simpa [Has, Arena.renameNested] using h
  | node id place index => simpa [Has, Arena.renameNested] using h
  | edge id place index =>
      cases place with
      | none => simpa [Has, Arena.renameNested] using h
      | some place => simpa [Has, Arena.renameNested] using h

end Subgraph.Has

namespace Subgraph

/-- Detaching drops children and keeps the order of the others. -/
theorem children_detach (graph : Subgraph) (element : Element) :
    (graph.detach element).children.Sublist graph.children := by
  cases element with
  | graph id => exact List.Sublist.refl _
  | state id place => exact Arena.children_eraseState graph place
  | node id place index =>
      exact Arena.children_modify fun state _ => Arena.nested_eraseNode state index
  | edge id place index =>
      cases place with
      | none => exact List.Sublist.refl _
      | some place => exact Arena.children_modify fun state _ => List.Sublist.refl _

/-- A change that commutes with the renaming may come before or after it. -/
theorem map_modify {states : List State} {place : Nat} {rename change : State → State}
    (h : ∀ state, change (rename state) = rename (change state)) :
    (states.map rename).modify place change = (states.modify place change).map rename := by
  apply List.ext_getElem?
  intro other
  rw [List.getElem?_modify, List.getElem?_map, List.getElem?_map, List.getElem?_modify]
  cases states[other]? with
  | none => rfl
  | some state => by_cases hplace : place = other <;> simp [hplace, h]

/-- Names of graphs and owners on record do not matter for what is detached. -/
theorem detach_renamed (graph : Subgraph) (element : Element) (rename : Nat → Option Nat)
    (owner : Option Location) :
    Subgraph.detach { Arena.renameNested rename graph with owner := owner } element =
      { Arena.renameNested rename (graph.detach element) with owner := owner } := by
  cases element with
  | graph id => rfl
  | state id place =>
      simp [detach, eraseState, Arena.renameNested, List.eraseIdx_map]
  | node id place index =>
      rw [detach, detach, Arena.renameNested, Arena.renameNested, Subgraph.mk.injEq]
      refine ⟨map_modify fun state => ?_, rfl, rfl, rfl⟩
      simp [State.eraseNode, List.eraseIdx_map, Node.renameScope, Function.comp_def]
  | edge id place index =>
      cases place with
      | none => rfl
      | some place =>
          rw [detach, detach, Arena.renameNested, Arena.renameNested, Subgraph.mk.injEq]
          exact ⟨map_modify fun state => rfl, rfl, rfl, rfl⟩

end Subgraph

namespace Arena

variable {arena : Arena}

/-! ## Erasing is detaching -/

/-- An element is live when its graph is there and has it. -/
theorem contains_iff_has {element : Element} : arena.contains element = true ↔
    ∃ graph, arena.graphs[element.graphIndex]? = some graph ∧ graph.Has element := by
  cases element with
  | graph id => simp [contains_graph, Element.graphIndex, Subgraph.Has]
  | state id place =>
      simp [contains_state, Element.graphIndex, Subgraph.Has, List.getElem?_eq_some_iff]
  | node id place index => simp [contains_node, Element.graphIndex, Subgraph.Has]
  | edge id place index =>
      cases place with
      | none => exact contains_between
      | some place => simp [contains_within, Element.graphIndex, Subgraph.Has]

/-- A live element is erased without an error. -/
theorem WellFormed.erase_eq (h : arena.WellFormed) {element : Element}
    (hlive : arena.contains element = true) (hgraph : ∀ id, element ≠ .graph id) :
    arena.erase element = .ok (arena.detach element).renumber := by
  cases element with
  | graph id => exact absurd rfl (hgraph id)
  | state id place =>
      obtain ⟨graph, state, hid, hstate⟩ := contains_state.mp hlive
      rw [Arena.erase, Arena.eraseState, state_eq_ok.mpr ⟨graph, hid, hstate⟩]
      rfl
  | node id place index =>
      obtain ⟨graph, state, hid, hstate, hindex⟩ := contains_node.mp hlive
      have hnode : arena.node ⟨id, place, index⟩ = .ok state.nodes[index] :=
        node_eq_ok.mpr ⟨graph, state, hid, hstate, List.getElem?_eq_getElem hindex⟩
      rw [Arena.erase, Arena.eraseNode, hnode]
      rfl
  | edge id place index =>
      cases place with
      | none =>
          obtain ⟨graph, hid, hindex⟩ := contains_between.mp hlive
          have herased : (arena.detach (.edge id none index)).WellFormed := h.eraseBetween id index
          rw [Arena.erase, graph_eq_ok.mpr hid, herased.renumber_eq]
          exact if_pos hindex
      | some place =>
          obtain ⟨graph, state, hid, hstate, hindex⟩ := contains_within.mp hlive
          have herased : (arena.detach (.edge id (some place) index)).WellFormed :=
            h.eraseWithin id place index
          rw [Arena.erase, state_eq_ok.mpr ⟨graph, hid, hstate⟩, herased.renumber_eq]
          exact if_pos hindex

/-! ## Detaching from a renumbered arena -/

namespace Reaches

variable {met : List Nat} {element : Element}

/-- After detaching, the walk meets some of the graphs it met, in the same order. -/
theorem detach (h : arena.Reaches met) (element : Element) :
    ∃ kept, kept.Sublist met ∧ (arena.detach element).Reaches kept :=
  h.modifyGraph fun graph _ => graph.children_detach element

/-- If the graph of the element is met and keeps its name, renumbering first does not matter. -/
theorem renumber_detach (h : arena.Reaches met) (hgraph : element.graphIndex ∈ met)
    (hname : met.idxOf element.graphIndex = element.graphIndex) :
    (arena.renumber.detach element).renumber = (arena.detach element).renumber := by
  obtain ⟨kept, hkept, hreach⟩ := h.detach element
  have hinjective : ∀ a ∈ met, ∀ b, met.idxOf a = met.idxOf b → a = b :=
    fun a ha b heq => (List.idxOf_inj ha).mp heq
  -- Renumbering names the graphs by their places in the walk; the edited one keeps its name.
  have hrenamed :
      Renamed kept met.idxOf (arena.detach element) (arena.renumber.detach element) := by
    intro id hid graph hdetached
    rw [Arena.detach, modifyGraph_getElem?] at hdetached
    obtain ⟨original, horiginal, rfl⟩ := Option.map_eq_some_iff.mp hdetached
    obtain ⟨owner, hfound⟩ := h.renumber_renamed id (hkept.subset hid) original horiginal
    refine ⟨owner, ?_⟩
    rw [Arena.detach, modifyGraph_getElem?, hfound, Option.map_some, Option.some.injEq]
    by_cases heq : element.graphIndex = id
    · subst heq
      simp only [hname, if_true]
      exact original.detach_renamed element _ owner
    · have hne : element.graphIndex ≠ met.idxOf id := by
        rw [← hname]
        exact fun hsame => heq (hinjective _ hgraph _ hsame)
      rw [if_neg heq, if_neg hne]
  exact hrenamed.renumber_eq hreach h.idxOf_root
    fun a ha b _ heq => hinjective a (hkept.subset ha) b heq

/-- An element of a graph that is met is live after renumbering, if the graph keeps its name. -/
theorem contains_renumber (h : arena.Reaches met) (hgraph : element.graphIndex ∈ met)
    (hname : met.idxOf element.graphIndex = element.graphIndex)
    (hlive : arena.contains element = true) : arena.renumber.contains element = true := by
  obtain ⟨graph, hfound, hhas⟩ := contains_iff_has.mp hlive
  obtain ⟨owner, hrenamed⟩ := h.renumber_renamed _ hgraph graph hfound
  simp only [hname] at hrenamed
  exact contains_iff_has.mpr ⟨_, hrenamed, hhas.renamed _ owner⟩

end Reaches

end Arena

end DataflowEditor
