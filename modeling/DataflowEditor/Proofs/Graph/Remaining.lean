import DataflowEditor.Proofs.Graph.Containment
import DataflowEditor.Proofs.Graph.Deletion

/-! # What a deletion leaves

Deleting a set of elements that is closed under containers and under the ends of edges loses nothing
else. The elements of the new arena are the other elements of the old one, each once and in the old
order; every place of an element is lowered by the number of siblings that went from below it.
-/

namespace DataflowEditor

/-- Where an element is found after others are gone. It is found nowhere if it is gone itself, or if
a container of it is. -/
def Element.lowered (gone : Element → Bool) : Element → Option Element
  | .graph id => (lowerPlace (fun id => gone (.graph id)) id).map .graph
  | .state id place =>
    (lowerPlace (fun id => gone (.graph id)) id).bind fun lower =>
      (lowerPlace (fun place => gone (.state id place)) place).map (.state lower)
  | .node id place index =>
    (lowerPlace (fun id => gone (.graph id)) id).bind fun lower =>
      (lowerPlace (fun place => gone (.state id place)) place).bind fun next =>
        (lowerPlace (fun index => gone (.node id place index)) index).map (.node lower next)
  | .edge id (some place) index =>
    (lowerPlace (fun id => gone (.graph id)) id).bind fun lower =>
      (lowerPlace (fun place => gone (.state id place)) place).bind fun next =>
        (lowerPlace (fun index => gone (.edge id (some place) index)) index).map
          (.edge lower (some next))
  | .edge id none index =>
    (lowerPlace (fun id => gone (.graph id)) id).bind fun lower =>
      (lowerPlace (fun index => gone (.edge id none index)) index).map (.edge lower none)

/-- An edge whose ends stay. -/
def Edge.lowered (lost : Nat → Bool) (edge : Edge) : Edge :=
  { edge with
    source := edge.source - goneBelow lost edge.source,
    target := edge.target - goneBelow lost edge.target }

/-- A state of a graph whose nested graphs are renamed. -/
def State.renameNested (rename : Nat → Option Nat) (state : State) : State :=
  { state with
    nodes := state.nodes.map fun node => { node with nested := node.nested.bind rename } }

/-- The scope indices of a node follow the places that stay, and no other field changes. -/
theorem Node.renameScope_following (gone : Nat → Bool) (node : Node) :
    Fields.Following ["scope_entry", "scope_exit"] (lowerPlace gone) (some .null) node.fields
      (node.renameScope (lowerPlace gone)).fields := by
  have hle : ∀ place next, lowerPlace gone place = some next → next ≤ place :=
    fun _ _ => le_of_lowerPlace
  rw [renameScope]
  refine ⟨fun key hkey => ?_, fun key hkey => ?_⟩
  · simp only [List.mem_cons, List.not_mem_nil, or_false] at hkey
    rcases hkey with rfl | rfl
    · rw [Fields.value?_renameIndex_of_ne _ _ (by decide)]
      exact Fields.renameIndex_follows hle
    · have hexit : (node.fields.renameIndex "scope_entry" (lowerPlace gone) (some .null)).value?
          "scope_exit" = node.fields.value? "scope_exit" :=
        Fields.value?_renameIndex_of_ne _ _ (by decide)
      rw [← hexit]
      exact Fields.renameIndex_follows hle
  · simp only [List.mem_cons, List.not_mem_nil, or_false, not_or] at hkey
    rw [Fields.value?_renameIndex_of_ne _ _ hkey.2, Fields.value?_renameIndex_of_ne _ _ hkey.1]

namespace Arena

variable {arena : Arena}

/-! ## Elements of changed lists -/

theorem zipIdx_mapIdx {α β : Type} (change : Nat → α → β) (items : List α) :
    (items.mapIdx change).zipIdx =
      items.zipIdx.map fun entry => (change entry.2 entry.1, entry.2) := by
  apply List.ext_getElem?
  intro place
  rw [List.getElem?_zipIdx, List.getElem?_mapIdx, List.getElem?_map, List.getElem?_zipIdx]
  cases items[place]? <;> simp

/-- Items that are changed at their places and then thinned out. -/
theorem flatMap_keep_mapIdx {α β γ : Type} (lost : Nat → Bool) (change : Nat → α → β)
    (items : List α) (part : β × Nat → List γ) :
    (keep lost (items.mapIdx change)).zipIdx.flatMap part = items.zipIdx.flatMap fun entry =>
      (lowerPlace lost entry.2).elim [] fun next => part (change entry.2 entry.1, next) := by
  rw [zipIdx_keep, zipIdx_mapIdx, List.filterMap_map]
  induction items.zipIdx with
  | nil => rfl
  | cons entry rest ih =>
      rw [List.filterMap_cons, List.flatMap_cons, ← ih]
      cases hplace : lowerPlace lost entry.2 <;> simp [hplace]

/-- Renaming the nested graphs of a graph changes none of its elements. -/
theorem elementsOfGraph_renamed (rename : Nat → Option Nat) (owner : Option Location) (id : Nat)
    (graph : Subgraph) :
    elementsOfGraph id { renameNested rename graph with owner := owner } =
      elementsOfGraph id graph := by
  simp [elementsOfGraph, renameNested, elementsOfState, List.zipIdx_map, List.flatMap_map]

/-- The elements after a deletion are those of the pruned graphs that stay, at their lowered
indices. -/
theorem elements_deleted_eq (removed : Element → Bool) : (arena.deleted removed).elements =
    arena.graphs.zipIdx.flatMap fun entry =>
      (lowerPlace (fun id => removed (.graph id)) entry.2).elim [] fun next =>
        elementsOfGraph next (entry.1.pruned removed entry.2) := by
  rw [← flatMap_keep_mapIdx _ (fun id graph => Subgraph.pruned removed id graph) _
    fun entry => elementsOfGraph entry.2 entry.1]
  rw [elements_eq, deleted, recordOwners, zipIdx_mapIdx, List.zipIdx_map, List.flatMap_map,
    List.flatMap_map]
  apply List.flatMap_congr
  intro entry _
  exact elementsOfGraph_renamed _ _ _ _

/-! ## Elements of what stays -/

theorem filterMap_places {α : Type} (lost : Nat → Bool) (items : List α)
    (lower : Element → Option Element) (before after : Nat → Element)
    (h : ∀ index, lower (before index) = (lowerPlace lost index).map after) :
    ((List.range items.length).map before).filterMap lower =
      (List.range (keep lost items).length).map after := by
  rw [List.filterMap_map, ← filterMap_lowerPlace_range, List.map_filterMap]
  exact List.filterMap_congr fun index _ => h index

/-- An edge is not lost as long as both ends stay. -/
theorem rename_lowered (lost : Nat → Bool) {edges : List Edge}
    (h : ∀ edge ∈ edges, lost edge.source = false ∧ lost edge.target = false) :
    edges.filterMap (Edge.rename (lowerPlace lost)) = edges.map (Edge.lowered lost) := by
  rw [← List.filterMap_eq_map]
  apply List.filterMap_congr
  intro edge hedge
  obtain ⟨hsource, htarget⟩ := h edge hedge
  rw [Edge.rename, lowerPlace_of_stays lost hsource, lowerPlace_of_stays lost htarget]
  rfl

section Closed

variable {targets : Element → Prop} {removed : Element → Bool}

/-- An edge inside a state that stays runs between nodes that stay. -/
theorem ends_stay_within (hremoved : Tells removed (arena.Removed targets)) {id place : Nat}
    {state : State} (hstate : arena.state id place = .ok state) :
    ∀ edge ∈ keep (fun index => removed (.edge id (some place) index)) state.edges,
      removed (.node id place edge.source) = false ∧
        removed (.node id place edge.target) = false := by
  intro edge hedge
  obtain ⟨index, hindex, hstays⟩ := mem_keep.mp hedge
  have hends : ∀ endpoint ∈ [edge.source, edge.target],
      removed (.node id place endpoint) = false := by
    intro endpoint hendpoint
    apply (hremoved.false_iff _).mpr
    intro hnode
    exact (hremoved.false_iff _).mp hstays (.within hstate hindex hendpoint hnode)
  exact ⟨hends _ (by simp), hends _ (by simp)⟩

/-- An edge between states that stays runs between states that stay. -/
theorem ends_stay_between (hremoved : Tells removed (arena.Removed targets)) {id : Nat}
    {graph : Subgraph} (hgraph : arena.graphs[id]? = some graph) :
    ∀ edge ∈ keep (fun index => removed (.edge id none index)) graph.edges,
      removed (.state id edge.source) = false ∧ removed (.state id edge.target) = false := by
  intro edge hedge
  obtain ⟨index, hindex, hstays⟩ := mem_keep.mp hedge
  have hends : ∀ endpoint ∈ [edge.source, edge.target], removed (.state id endpoint) = false := by
    intro endpoint hendpoint
    apply (hremoved.false_iff _).mpr
    intro hstate
    exact (hremoved.false_iff _).mp hstays (.between hgraph hindex hendpoint hstate)
  exact ⟨hends _ (by simp), hends _ (by simp)⟩

/-- The elements of a pruned state are those of the state that stay, at their lowered indices. -/
theorem elementsOfState_lowered
    (hremoved : Tells removed (arena.Removed targets)) {id place lower : Nat}
    {state : State} (hstate : arena.state id place = .ok state)
    (hid : lowerPlace (fun id => removed (.graph id)) id = some lower) :
    (elementsOfState id place state).filterMap (Element.lowered removed) =
      (lowerPlace (fun place => removed (.state id place)) place).elim [] fun next =>
        elementsOfState lower next (state.pruned removed id place) := by
  cases hplace : lowerPlace (fun place => removed (.state id place)) place with
  | none =>
      apply List.filterMap_eq_nil_iff.mpr
      intro element helement
      rcases mem_elementsOfState.mp helement with rfl | ⟨index, _, rfl⟩ | ⟨index, _, rfl⟩
      · simp [Element.lowered, hplace]
      · simp [Element.lowered, hplace]
      · simp [Element.lowered, hplace]
  | some next =>
      have hnodes := filterMap_places (fun index => removed (.node id place index)) state.nodes
        (Element.lowered removed) (.node id place) (.node lower next)
        fun index => by simp [Element.lowered, hid, hplace]
      have hedges := filterMap_places (fun index => removed (.edge id (some place) index))
        state.edges (Element.lowered removed) (.edge id (some place)) (.edge lower (some next))
        fun index => by simp [Element.lowered, hid, hplace]
      have hself : Element.lowered removed (.state id place) = some (.state lower next) := by
        simp [Element.lowered, hid, hplace]
      rw [elementsOfState, List.filterMap_cons, hself, List.filterMap_append, hnodes, hedges,
        Option.elim_some, elementsOfState, State.pruned]
      dsimp only
      rw [List.length_map, rename_lowered (fun index => removed (.node id place index))
          (ends_stay_within hremoved hstate), List.length_map]

/-- The elements of a pruned graph are those of the graph that stay, at their lowered indices. -/
theorem elementsOfGraph_lowered
    (hremoved : Tells removed (arena.Removed targets)) {id : Nat}
    {graph : Subgraph} (hgraph : arena.graphs[id]? = some graph) :
    (elementsOfGraph id graph).filterMap (Element.lowered removed) =
      (lowerPlace (fun id => removed (.graph id)) id).elim [] fun lower =>
        elementsOfGraph lower (graph.pruned removed id) := by
  cases hid : lowerPlace (fun id => removed (.graph id)) id with
  | none =>
      apply List.filterMap_eq_nil_iff.mpr
      intro element helement
      have hindex := graphIndex_of_mem helement
      cases element with
      | edge parent place index =>
          cases place <;> simp_all [Element.lowered, Element.graphIndex]
      | _ => simp_all [Element.lowered, Element.graphIndex]
  | some lower =>
      have hstates : (graph.states.zipIdx.flatMap fun entry =>
          elementsOfState id entry.2 entry.1).filterMap (Element.lowered removed) =
            (graph.pruned removed id).states.zipIdx.flatMap fun entry =>
              elementsOfState lower entry.2 entry.1 := by
        -- State by state: one that goes lists nothing, one that stays its elements that stay.
        rw [Subgraph.pruned, flatMap_keep_mapIdx, List.filterMap_flatMap]
        apply List.flatMap_congr
        intro entry hentry
        have hstate := List.mk_mem_zipIdx_iff_getElem?.mp hentry
        exact elementsOfState_lowered hremoved (state_eq_ok.mpr ⟨graph, hgraph, hstate⟩) hid
      have hedges := filterMap_places (fun index => removed (.edge id none index)) graph.edges
        (Element.lowered removed) (.edge id none) (.edge lower none)
        fun index => by simp [Element.lowered, hid]
      have hself : Element.lowered removed (.graph id) = some (.graph lower) := by
        simp [Element.lowered, hid]
      have hlength : (graph.pruned removed id).edges.length =
          (keep (fun index => removed (.edge id none index)) graph.edges).length := by
        rw [Subgraph.pruned]
        dsimp only
        rw [rename_lowered (fun place => removed (.state id place))
          (ends_stay_between hremoved hgraph), List.length_map]
      rw [elementsOfGraph, List.cons_append, List.filterMap_cons, hself, List.filterMap_append,
        hstates, hedges, Option.elim_some, elementsOfGraph, List.cons_append, hlength]

/-- Every element that is not removed is there once, in the old order and at its lowered place, and
there is no other. -/
theorem elements_deleted
    (hremoved : Tells removed (arena.Removed targets)) :
    (arena.deleted removed).elements = arena.elements.filterMap (Element.lowered removed) := by
  rw [elements_deleted_eq, elements_eq, List.filterMap_flatMap]
  apply List.flatMap_congr
  intro entry hentry
  have hgraph := List.mk_mem_zipIdx_iff_getElem?.mp hentry
  exact (elementsOfGraph_lowered hremoved hgraph).symm

/-- An element that stays is found, since its containers stay as well. -/
theorem lowered_eq_none
    (hremoved : Tells removed (arena.Removed targets))
    (element : Element) : Element.lowered removed element = none ↔ removed element = true := by
  have hinside : ∀ {outer inner : Element}, arena.Holds outer inner →
      removed inner = false → removed outer = false := by
    intro outer inner hholds hstays
    apply (hremoved.false_iff _).mpr
    intro houter
    exact (hremoved.false_iff _).mp hstays (.inside houter hholds)
  cases hself : removed element with
  | true =>
      refine iff_of_true ?_ rfl
      cases element with
      | edge id place index => cases place <;> simp [Element.lowered, lowerPlace, hself]
      | _ => simp [Element.lowered, lowerPlace, hself]
  | false =>
      refine iff_of_false ?_ Bool.false_ne_true
      cases element with
      | graph id => simp [Element.lowered, lowerPlace, hself]
      | state id place =>
          have hgraph := hinside (.state id place) hself
          simp [Element.lowered, lowerPlace, hself, hgraph]
      | node id place index =>
          have hstate := hinside (.node id place index) hself
          have hgraph := hinside (.state id place) hstate
          simp [Element.lowered, lowerPlace, hself, hstate, hgraph]
      | edge id place index =>
          cases place with
          | none =>
              have hgraph := hinside (.between id index) hself
              simp [Element.lowered, lowerPlace, hself, hgraph]
          | some place =>
              have hstate := hinside (.within id place index) hself
              have hgraph := hinside (.state id place) hstate
              simp [Element.lowered, lowerPlace, hself, hstate, hgraph]

end Closed

/-! ## Contents of what stays -/

/-- What is left of an arena: its other elements, at lowered places and with what they had. -/
structure Remains (arena : Arena) (removed : Element → Bool) (result : Arena) : Prop where
  /-- Every element that stays is listed once, in the old order, and nothing else is. -/
  elements : result.elements = arena.elements.filterMap (Element.lowered removed)
  gone : ∀ element, Element.lowered removed element = none ↔ removed element = true
  /-- A graph keeps its fields, but its first state follows or goes. -/
  graph : ∀ {id lower graph}, arena.graphs[id]? = some graph →
    Element.lowered removed (.graph id) = some (.graph lower) →
      ∃ kept, result.graphs[lower]? = some kept ∧
        Fields.Following ["start_state"] (lowerPlace fun place => removed (.state id place)) none
          graph.fields kept.fields
  state : ∀ {id place lower next state}, arena.state id place = .ok state →
    Element.lowered removed (.state id place) = some (.state lower next) →
      ∃ kept, result.state lower next = .ok kept ∧ kept.fields = state.fields
  /-- A node keeps the graph it owns, and its fields but for its scope, which follows or becomes
  null. -/
  node : ∀ {id place index lower next last node}, arena.node ⟨id, place, index⟩ = .ok node →
    Element.lowered removed (.node id place index) = some (.node lower next last) →
      ∃ kept, result.node ⟨lower, next, last⟩ = .ok kept ∧
        Fields.Following ["scope_entry", "scope_exit"]
          (lowerPlace fun index => removed (.node id place index)) (some .null)
          node.fields kept.fields ∧
        Option.Rel (fun owned kept => Element.lowered removed (.graph owned) = some (.graph kept))
          node.nested kept.nested
  /-- An edge of a state joins the same two nodes. -/
  within : ∀ {id place index lower next last state edge}, arena.state id place = .ok state →
    state.edges[index]? = some edge →
    Element.lowered removed (.edge id (some place) index) = some (.edge lower (some next) last) →
      ∃ kept source target, result.state lower next = .ok kept ∧
        kept.edges[last]? = some ⟨source, target, edge.fields⟩ ∧
        Element.lowered removed (.node id place edge.source) = some (.node lower next source) ∧
        Element.lowered removed (.node id place edge.target) = some (.node lower next target)
  /-- An edge of a graph joins the same two states. -/
  between : ∀ {id index lower last graph edge}, arena.graphs[id]? = some graph →
    graph.edges[index]? = some edge →
    Element.lowered removed (.edge id none index) = some (.edge lower none last) →
      ∃ kept source target, result.graphs[lower]? = some kept ∧
        kept.edges[last]? = some ⟨source, target, edge.fields⟩ ∧
        Element.lowered removed (.state id edge.source) = some (.state lower source) ∧
        Element.lowered removed (.state id edge.target) = some (.state lower target)

section Contents

variable {removed : Element → Bool} {id place lower next : Nat}

/-- A graph that stays is found at its lowered index, pruned and with its nested graphs renamed. -/
theorem graphs_deleted {graph : Subgraph} (hgraph : arena.graphs[id]? = some graph)
    (hid : lowerPlace (fun id => removed (.graph id)) id = some lower) :
    ∃ owner, (arena.deleted removed).graphs[lower]? =
      some { renameNested (lowerPlace fun id => removed (.graph id)) (graph.pruned removed id) with
        owner := owner } := by
  have hkept := keep_getElem? (arena.pruned removed).graphs hid
  rw [pruned_getElem?, hgraph, Option.map_some] at hkept
  rw [deleted, recordOwners_getElem?, List.getElem?_map, hkept]
  exact ⟨_, rfl⟩

theorem state_deleted {state : State} (hstate : arena.state id place = .ok state)
    (hid : lowerPlace (fun id => removed (.graph id)) id = some lower)
    (hplace : lowerPlace (fun place => removed (.state id place)) place = some next) :
    (arena.deleted removed).state lower next = .ok ((state.pruned removed id place).renameNested
      (lowerPlace fun id => removed (.graph id))) := by
  obtain ⟨graph, hgraph, hfound⟩ := state_eq_ok.mp hstate
  obtain ⟨owner, hkept⟩ := graphs_deleted hgraph hid
  refine state_eq_ok.mpr ⟨_, hkept, ?_⟩
  have hstates := keep_getElem? (graph.states.mapIdx (State.pruned removed id)) hplace
  rw [List.getElem?_mapIdx, hfound, Option.map_some] at hstates
  rw [renameNested, Subgraph.pruned]
  dsimp only
  rw [List.getElem?_map, hstates]
  rfl

variable {targets : Element → Prop} {index last : Nat}

/-- A node that stays is found at its lowered place, with its nested graph and its scope renamed. -/
theorem node_deleted {node : Node} (hnode : arena.node ⟨id, place, index⟩ = .ok node)
    (hid : lowerPlace (fun id => removed (.graph id)) id = some lower)
    (hplace : lowerPlace (fun place => removed (.state id place)) place = some next)
    (hindex : lowerPlace (fun index => removed (.node id place index)) index = some last) :
    (arena.deleted removed).node ⟨lower, next, last⟩ =
      .ok ⟨node.nested.bind (lowerPlace fun id => removed (.graph id)),
        (node.renameScope (lowerPlace fun index => removed (.node id place index))).fields⟩ := by
  obtain ⟨graph, state, hgraph, hstate, hfound⟩ := node_eq_ok.mp hnode
  have hdeleted := state_deleted (state_eq_ok.mpr ⟨graph, hgraph, hstate⟩) hid hplace
  obtain ⟨kept, hkept, hkeptState⟩ := state_eq_ok.mp hdeleted
  refine node_eq_ok.mpr ⟨kept, _, hkept, hkeptState, ?_⟩
  have hkeptNode := keep_getElem? state.nodes hindex
  rw [State.renameNested, State.pruned]
  dsimp only at hkeptNode hfound ⊢
  rw [List.getElem?_map, List.getElem?_map, hkeptNode, hfound]
  rfl

/-- An edge inside a state that stays is found at its lowered place, between nodes that stay. -/
theorem edge_within_deleted
    (hremoved : Tells removed (arena.Removed targets)) {state : State}
    {edge : Edge} (hstate : arena.state id place = .ok state)
    (hedge : state.edges[index]? = some edge)
    (hindex : lowerPlace (fun index => removed (.edge id (some place) index)) index = some last) :
    (state.pruned removed id place).edges[last]? =
        some (edge.lowered fun index => removed (.node id place index)) ∧
      removed (.node id place edge.source) = false ∧
        removed (.node id place edge.target) = false := by
  have hends := ends_stay_within hremoved hstate
  have hkept := keep_getElem? state.edges hindex
  refine ⟨?_, hends edge ?_⟩
  · rw [State.pruned]
    dsimp only
    rw [rename_lowered (fun index => removed (.node id place index)) hends, List.getElem?_map,
      hkept, hedge, Option.map_some]
  · exact List.mem_of_getElem? (hkept.trans hedge)

/-- An edge between states that stays is found at its lowered place, between states that stay. -/
theorem edge_between_deleted
    (hremoved : Tells removed (arena.Removed targets))
    {graph : Subgraph} {edge : Edge} (hgraph : arena.graphs[id]? = some graph)
    (hedge : graph.edges[index]? = some edge)
    (hindex : lowerPlace (fun index => removed (.edge id none index)) index = some last) :
    (graph.pruned removed id).edges[last]? =
        some (edge.lowered fun place => removed (.state id place)) ∧
      removed (.state id edge.source) = false ∧ removed (.state id edge.target) = false := by
  have hends := ends_stay_between hremoved hgraph
  have hkept := keep_getElem? graph.edges hindex
  refine ⟨?_, hends edge ?_⟩
  · rw [Subgraph.pruned]
    dsimp only
    rw [rename_lowered (fun place => removed (.state id place)) hends, List.getElem?_map, hkept,
      hedge, Option.map_some]
  · exact List.mem_of_getElem? (hkept.trans hedge)

/-- The graph that a node owns goes only with the node. -/
theorem WellFormed.owned_stays (h : arena.WellFormed)
    (hremoved : Tells removed (arena.Removed targets))
    (htargets : ∀ id, ¬ targets (.graph id)) {location : Location} (howns : arena.Owns location id)
    (hstays : removed (.ofLocation location) = false) : removed (.graph id) = false := by
  apply (hremoved.false_iff _).mpr
  intro hgoes
  obtain ⟨other, hother, hlost⟩ := (removed_graph.mp hgoes).resolve_left (htargets id)
  have hsame := (h.recordedOwner_eq_some_iff.mpr hother).symm.trans
    (h.recordedOwner_eq_some_iff.mpr howns)
  obtain rfl := Option.some.inj hsame
  exact (hremoved.false_iff _).mp hstays hlost

/-- A node that stays still nests the graph it nested, at that graph's lowered index. -/
theorem WellFormed.nested_remains (h : arena.WellFormed)
    (hremoved : Tells removed (arena.Removed targets)) (htargets : ∀ id, ¬ targets (.graph id))
    {location : Location} {node : Node} (hnode : arena.node location = .ok node)
    (hstays : removed (.ofLocation location) = false) :
    Option.Rel (fun owned kept => Element.lowered removed (.graph owned) = some (.graph kept))
      node.nested (node.nested.bind (lowerPlace fun id => removed (.graph id))) := by
  cases hnested : node.nested with
  | none => exact .none
  | some owned =>
      have howned := h.owned_stays hremoved htargets ⟨node, hnode, hnested⟩ hstays
      rw [Option.bind_some, lowerPlace_of_stays (fun id => removed (.graph id)) howned]
      refine .some ?_
      rw [Element.lowered, lowerPlace_of_stays (fun id => removed (.graph id)) howned,
        Option.map_some]

/-- Deleting elements with all that is removed with them leaves everything else. -/
theorem WellFormed.deleted_remains (h : arena.WellFormed)
    (hremoved : Tells removed (arena.Removed targets))
    (htargets : ∀ id, ¬ targets (.graph id)) :
    arena.Remains removed (arena.deleted removed) where
  elements := elements_deleted hremoved
  gone := lowered_eq_none hremoved
  graph := by
    intro id lower graph hgraph hlowered
    simp only [Element.lowered, Option.map_eq_some_iff, Element.graph.injEq] at hlowered
    obtain ⟨_, hid, rfl⟩ := hlowered
    obtain ⟨owner, hkept⟩ := graphs_deleted hgraph hid
    refine ⟨_, hkept, ?_, ?_⟩
    · intro key hkey
      obtain rfl := List.mem_singleton.mp hkey
      exact Fields.renameIndex_follows fun _ _ => le_of_lowerPlace
    · intro key hkey
      change (graph.fields.renameIndex "start_state" _ none).value? key = _
      exact Fields.value?_renameIndex_of_ne _ _ (by simpa using hkey)
  state := by
    intro id place lower next state hstate hlowered
    simp only [Element.lowered, Option.bind_eq_some_iff, Option.map_eq_some_iff,
      Element.state.injEq] at hlowered
    obtain ⟨_, hid, _, hplace, rfl, rfl⟩ := hlowered
    exact ⟨_, state_deleted hstate hid hplace, rfl⟩
  -- That a node has a new name is what says that it stays, so its graph stays as well.
  node := by
    intro id place index lower next last node hnode hlowered
    have hstays : removed (.node id place index) = false := by
      have hsome : Element.lowered removed (.node id place index) ≠ none := by simp [hlowered]
      rwa [ne_eq, lowered_eq_none hremoved, Bool.not_eq_true] at hsome
    simp only [Element.lowered, Option.bind_eq_some_iff, Option.map_eq_some_iff,
      Element.node.injEq] at hlowered
    obtain ⟨_, hid, _, hplace, _, hindex, rfl, rfl, rfl⟩ := hlowered
    refine ⟨_, node_deleted hnode hid hplace hindex, node.renameScope_following _, ?_⟩
    exact h.nested_remains hremoved htargets hnode hstays
  within := by
    intro id place index lower next last state edge hstate hedge hlowered
    simp only [Element.lowered, Option.bind_eq_some_iff, Option.map_eq_some_iff,
      Element.edge.injEq, Option.some.injEq] at hlowered
    obtain ⟨_, hid, _, hplace, _, hindex, rfl, rfl, rfl⟩ := hlowered
    obtain ⟨hkept, hsource, htarget⟩ := edge_within_deleted hremoved hstate hedge hindex
    refine ⟨_, _, _, state_deleted hstate hid hplace, hkept, ?_, ?_⟩
    · simpa [Element.lowered, hid, hplace] using
        lowerPlace_of_stays (fun index => removed (.node id place index)) hsource
    · simpa [Element.lowered, hid, hplace] using
        lowerPlace_of_stays (fun index => removed (.node id place index)) htarget
  between := by
    intro id index lower last graph edge hgraph hedge hlowered
    simp only [Element.lowered, Option.bind_eq_some_iff, Option.map_eq_some_iff,
      Element.edge.injEq] at hlowered
    obtain ⟨_, hid, _, hindex, rfl, _, rfl⟩ := hlowered
    obtain ⟨owner, hgraphs⟩ := graphs_deleted hgraph hid
    obtain ⟨hkept, hsource, htarget⟩ := edge_between_deleted hremoved hgraph hedge hindex
    refine ⟨_, _, _, hgraphs, hkept, ?_, ?_⟩
    · simpa [Element.lowered, hid] using
        lowerPlace_of_stays (fun place => removed (.state id place)) hsource
    · simpa [Element.lowered, hid] using
        lowerPlace_of_stays (fun place => removed (.state id place)) htarget

end Contents

end Arena

end DataflowEditor
