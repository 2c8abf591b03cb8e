import DataflowEditor.Proofs.Graph.Containment
import DataflowEditor.Proofs.Graph.Pruning

/-! # Deleting elements together

Elements are deleted together with all that lies in them and with the edges that touch them. What
stays keeps its order, and references by place follow. Pruning the graphs that the elements lie in
and renumbering the arena once gives the same arena, because a graph is no longer met exactly if it
is owned by a node that goes.
-/

namespace DataflowEditor

/-- A test tells which elements have a property. -/
def Tells (test : Element → Bool) (property : Element → Prop) : Prop :=
  ∀ element, test element = true ↔ property element

theorem Tells.false_iff {test : Element → Bool} {property : Element → Prop}
    (h : Tells test property) (element : Element) : test element = false ↔ ¬ property element := by
  rw [← h, Bool.not_eq_true]

namespace Arena

variable {arena : Arena} {targets : Element → Prop}

/-! ## What goes with the targets -/

/-- A target is removed, and so is everything in a removed container and every edge with a removed
end. -/
inductive Removed (arena : Arena) (targets : Element → Prop) : Element → Prop
  | target {element : Element} : targets element → Removed arena targets element
  | inside {outer inner : Element} :
      Removed arena targets outer → arena.Holds outer inner → Removed arena targets inner
  | within {id place index endpoint : Nat} {state : State} {edge : Edge} :
      arena.state id place = .ok state → state.edges[index]? = some edge →
      endpoint ∈ [edge.source, edge.target] → Removed arena targets (.node id place endpoint) →
      Removed arena targets (.edge id (some place) index)
  | between {id index endpoint : Nat} {graph : Subgraph} {edge : Edge} :
      arena.graphs[id]? = some graph → graph.edges[index]? = some edge →
      endpoint ∈ [edge.source, edge.target] → Removed arena targets (.state id endpoint) →
      Removed arena targets (.edge id none index)

/-- The arena without the elements that are gone. What stays keeps its order. -/
def deleted (arena : Arena) (gone : Element → Bool) : Arena :=
  recordOwners ⟨(keep (fun id => gone (.graph id)) (arena.pruned gone).graphs).map
    (renameNested (lowerPlace fun id => gone (.graph id)))⟩

/-- A graph goes when it is a target or when the node that owns it goes. -/
theorem removed_graph {id : Nat} : arena.Removed targets (.graph id) ↔
    targets (.graph id) ∨
      ∃ location, arena.Owns location id ∧ arena.Removed targets (.ofLocation location) := by
  constructor
  · intro h
    cases h with
    | target htarget => exact .inl htarget
    | inside houter hholds =>
        cases hholds with
        | nested howns => exact .inr ⟨_, howns, houter⟩
  · rintro (htarget | ⟨location, howns, houter⟩)
    · exact .target htarget
    · exact .inside houter (.nested howns)

theorem removed_state {id place : Nat} : arena.Removed targets (.state id place) ↔
    targets (.state id place) ∨ arena.Removed targets (.graph id) := by
  constructor
  · intro h
    cases h with
    | target htarget => exact .inl htarget
    | inside houter hholds =>
        cases hholds with
        | state => exact .inr houter
  · rintro (htarget | houter)
    · exact .target htarget
    · exact .inside houter (.state id place)

theorem removed_node {id place index : Nat} : arena.Removed targets (.node id place index) ↔
    targets (.node id place index) ∨ arena.Removed targets (.state id place) := by
  constructor
  · intro h
    cases h with
    | target htarget => exact .inl htarget
    | inside houter hholds =>
        cases hholds with
        | node => exact .inr houter
  · rintro (htarget | houter)
    · exact .target htarget
    · exact .inside houter (.node id place index)

/-- In a state that stays, an edge goes as a target or with one of its ends. -/
theorem removed_within {id place index : Nat} {state : State} {edge : Edge}
    (hstate : arena.state id place = .ok state) (hedge : state.edges[index]? = some edge)
    (hstays : ¬ arena.Removed targets (.state id place)) :
    arena.Removed targets (.edge id (some place) index) ↔
      targets (.edge id (some place) index) ∨
        arena.Removed targets (.node id place edge.source) ∨
          arena.Removed targets (.node id place edge.target) := by
  constructor
  · intro h
    cases h with
    | target htarget => exact .inl htarget
    | inside houter hholds =>
        cases hholds with
        | within => exact absurd houter hstays
    | within hfound hindex hend hnode =>
        obtain rfl := Except.ok.inj (hstate.symm.trans hfound)
        obtain rfl := Option.some.inj (hedge.symm.trans hindex)
        rcases List.mem_pair.mp hend with rfl | rfl
        · exact .inr (.inl hnode)
        · exact .inr (.inr hnode)
  · rintro (htarget | hnode | hnode)
    · exact .target htarget
    · exact .within hstate hedge (by simp) hnode
    · exact .within hstate hedge (by simp) hnode

/-- In a graph that stays, an edge goes as a target or with one of its ends. -/
theorem removed_between {id index : Nat} {graph : Subgraph} {edge : Edge}
    (hgraph : arena.graphs[id]? = some graph) (hedge : graph.edges[index]? = some edge)
    (hstays : ¬ arena.Removed targets (.graph id)) :
    arena.Removed targets (.edge id none index) ↔
      targets (.edge id none index) ∨ arena.Removed targets (.state id edge.source) ∨
        arena.Removed targets (.state id edge.target) := by
  constructor
  · intro h
    cases h with
    | target htarget => exact .inl htarget
    | inside houter hholds =>
        cases hholds with
        | between => exact absurd houter hstays
    | between hfound hindex hend hstate =>
        obtain rfl := Option.some.inj (hgraph.symm.trans hfound)
        obtain rfl := Option.some.inj (hedge.symm.trans hindex)
        rcases List.mem_pair.mp hend with rfl | rfl
        · exact .inr (.inl hstate)
        · exact .inr (.inr hstate)
  · rintro (htarget | hstate | hstate)
    · exact .target htarget
    · exact .between hgraph hedge (by simp) hstate
    · exact .between hgraph hedge (by simp) hstate

/-! ## Graphs that are met after pruning -/

/-- A pruned graph nests what is nested in those of its nodes and states that stay. -/
theorem mem_children_pruned {gone : Element → Bool} {parent id : Nat} {graph : Subgraph} :
    id ∈ (graph.pruned gone parent).children ↔ ∃ place state index node,
      graph.states[place]? = some state ∧ gone (.state parent place) = false ∧
        state.nodes[index]? = some node ∧ gone (.node parent place index) = false ∧
          node.nested = some id := by
  simp only [Subgraph.children, Subgraph.pruned, List.mem_flatMap, List.mem_filterMap, mem_keep,
    List.getElem?_mapIdx, Option.map_eq_some_iff]
  constructor
  · rintro ⟨_, ⟨place, ⟨state, hstate, rfl⟩, hplace⟩, node, hnode, hnested⟩
    obtain ⟨original, hkept, rfl⟩ := List.mem_map.mp hnode
    obtain ⟨index, hindex, hstays⟩ := mem_keep.mp hkept
    exact ⟨place, state, index, original, hstate, hplace, hindex, hstays, hnested⟩
  · rintro ⟨place, state, index, node, hstate, hplace, hindex, hstays, hnested⟩
    have hkept : node ∈ keep (fun index => gone (.node parent place index)) state.nodes :=
      mem_keep.mpr ⟨index, hindex, hstays⟩
    exact ⟨_, ⟨place, ⟨state, hstate, rfl⟩, hplace⟩, _, List.mem_map_of_mem hkept, hnested⟩

/-- So the children of a graph in a pruned arena are the owned graphs whose owner stays. -/
theorem mem_childrenAt_pruned {gone : Element → Bool} {parent id : Nat} :
    id ∈ (arena.pruned gone).childrenAt parent ↔ ∃ location, arena.Owns location id ∧
      location.graph = parent ∧ gone (.state parent location.state) = false ∧
        gone (.ofLocation location) = false := by
  rw [childrenAt, pruned_getElem?]
  cases hgraph : arena.graphs[parent]? with
  | none =>
      simp only [Option.map_none, Option.elim_none, List.not_mem_nil, false_iff]
      rintro ⟨location, ⟨node, hnode, _⟩, rfl, _⟩
      obtain ⟨graph, _, hfound, _⟩ := node_eq_ok.mp hnode
      cases hgraph.symm.trans hfound
  | some graph =>
      rw [Option.map_some, Option.elim_some, mem_children_pruned]
      constructor
      · rintro ⟨place, state, index, node, hstate, hplace, hindex, hstays, hnested⟩
        have hnode : arena.node ⟨parent, place, index⟩ = .ok node :=
          node_eq_ok.mpr ⟨graph, state, hgraph, hstate, hindex⟩
        exact ⟨⟨parent, place, index⟩, ⟨node, hnode, hnested⟩, rfl, hplace, hstays⟩
      · rintro ⟨location, ⟨node, hnode, hnested⟩, rfl, hplace, hstays⟩
        obtain ⟨found, state, hfound, hstate, hindex⟩ := node_eq_ok.mp hnode
        obtain rfl := Option.some.inj (hgraph.symm.trans hfound)
        exact ⟨_, state, _, node, hstate, hplace, hindex, hstays, hnested⟩

theorem flatMap_mapIdx_sublist {α β : Type} {change : Nat → α → α} {part : α → List β}
    (h : ∀ place item, (part (change place item)).Sublist (part item)) (items : List α) :
    ((items.mapIdx change).flatMap part).Sublist (items.flatMap part) := by
  induction items generalizing change with
  | nil => exact .slnil
  | cons item rest ih =>
      rw [List.mapIdx_cons, List.flatMap_cons, List.flatMap_cons]
      exact (h 0 item).append (ih fun place => h (place + 1))

/-- Pruning drops children and keeps the order of the others. -/
theorem children_pruned (gone : Element → Bool) (id : Nat) (graph : Subgraph) :
    (graph.pruned gone id).children.Sublist graph.children := by
  have hstates : ((graph.states.mapIdx (State.pruned gone id)).flatMap fun state =>
      state.nodes.filterMap Node.nested).Sublist graph.children := by
    refine flatMap_mapIdx_sublist (fun place state => ?_) graph.states
    rw [State.pruned, List.filterMap_map]
    exact (keep_sublist _ state.nodes).filterMap Node.nested
  have hkept := (keep_sublist (fun place => gone (.state id place))
    (graph.states.mapIdx (State.pruned gone id))).flatMap
      fun state => state.nodes.filterMap Node.nested
  exact hkept.trans hstates

/-- The graphs that are still met after pruning are met in their old order. -/
theorem WellFormed.reaches_pruned (h : arena.WellFormed) (gone : Element → Bool) :
    ∃ met, met.Sublist (List.range arena.graphs.length) ∧ (arena.pruned gone).Reaches met := by
  apply h.reaches.of_children (pruned_length gone)
  intro id
  rw [childrenAt, childrenAt, pruned_getElem?]
  cases arena.graphs[id]? with
  | none => exact .slnil
  | some graph => exact children_pruned gone id graph

/-- Apart from the root, the walk meets a graph when it meets the owner's graph and the owner
stays. -/
theorem Reaches.mem_iff_owner {gone : Element → Bool} {met : List Nat}
    (h : (arena.pruned gone).Reaches met) {id : Nat} (hid : 0 < id) :
    id ∈ met ↔ ∃ location, arena.Owns location id ∧ location.graph ∈ met ∧
      gone (.state location.graph location.state) = false ∧
        gone (.ofLocation location) = false := by
  rw [h.walk.mem_iff]
  simp only [List.mem_singleton, hid.ne', false_or, mem_childrenAt_pruned]
  constructor
  · rintro ⟨_, hparent, location, howns, rfl, hstays⟩
    exact ⟨location, howns, hparent, hstays⟩
  · rintro ⟨location, howns, hparent, hstays⟩
    exact ⟨_, hparent, location, howns, rfl, hstays⟩

/-- Where nothing goes from graphs in front of a graph, it keeps its name. -/
theorem WellFormed.keeps_name (h : arena.WellFormed) {gone : Element → Bool} {met : List Nat}
    (hsublist : met.Sublist (List.range arena.graphs.length))
    (hreach : (arena.pruned gone).Reaches met) {id : Nat} (hid : id < arena.graphs.length)
    (hgone : ∀ element, gone element = true → id ≤ element.graphIndex) :
    id ∈ met ∧ met.idxOf id = id := by
  have hfront : ∀ element : Element, element.graphIndex < id → gone element = false := by
    intro element hlt
    by_contra hnot
    have hle := hgone element (by simpa using hnot)
    omega
  -- A graph in front is met because its owner stays and lies further in front.
  have hmet : ∀ other ≤ id, other ∈ met := by
    intro other
    induction other using Nat.strong_induction_on with
    | _ other ih =>
        intro hle
        rcases Nat.eq_zero_or_pos other with rfl | hpos
        · obtain ⟨rest, rfl⟩ := hreach.head
          exact List.mem_cons_self
        · obtain ⟨location, _, hunique⟩ := h.owned other hpos (by omega)
          have howns := (hunique location).mpr rfl
          have hlt := (h.lt_of_owns howns).1
          refine (hreach.mem_iff_owner hpos).mpr ⟨location, howns, ih _ hlt (by omega), ?_, ?_⟩
          · exact hfront _ (show location.graph < id by omega)
          · exact hfront _ (show location.graph < id by omega)
  have hindex : met.idxOf? id = lowerPlace (fun other => !decide (other ∈ met)) id := by
    rw [← idxOf?_filter_range hid]
    simp only [Bool.not_not]
    rw [filter_mem_of_sublist hsublist List.nodup_range]
  have hself := hmet id (Nat.le_refl id)
  rw [idxOf?_of_mem hself, lowerPlace_of_below fun below hle => by simp [hmet below hle]] at hindex
  exact ⟨hself, Option.some.inj hindex⟩

/-! ## Pruning once -/

section Pruning

variable {gone removed : Element → Bool}

/-- In a state that stays, pruning the targets is pruning all that goes. -/
theorem state_pruned_removed (hgone : Tells gone targets)
    (hremoved : Tells removed (arena.Removed targets))
    {id place : Nat} {state : State} (hstate : arena.state id place = .ok state)
    (hstays : removed (.state id place) = false) :
    state.pruned gone id place = state.pruned removed id place := by
  have hstateStays := (hremoved.false_iff _).mp hstays
  have hnodes : ∀ index, gone (.node id place index) = removed (.node id place index) := by
    intro index
    rw [Bool.eq_iff_iff, hgone, hremoved, removed_node]
    exact (or_iff_left hstateStays).symm
  have hlost : ∀ index, arena.Removed targets (.node id place index) →
      lowerPlace (fun index => removed (.node id place index)) index = none :=
    fun index hgoes => lowerPlace_of_gone _ ((hremoved _).mpr hgoes)
  rw [State.pruned, State.pruned]
  simp only [hnodes]
  rw [State.mk.injEq]
  refine ⟨rfl, filterMap_keep_congr fun index edge hedge => ?_, rfl⟩
  by_cases hends : arena.Removed targets (.node id place edge.source) ∨
      arena.Removed targets (.node id place edge.target)
  · exact .inr (Edge.rename_eq_none (hends.imp (hlost _) (hlost _)))
  · left
    rw [Bool.eq_iff_iff, hgone, hremoved, removed_within hstate hedge hstateStays]
    exact (or_iff_left hends).symm

/-- In a graph that stays, states go as targets only, and so do nodes in a state that stays. An edge
that goes with one of its ends is lost in pruning anyway. -/
theorem pruned_removed (hgone : Tells gone targets)
    (hremoved : Tells removed (arena.Removed targets)) {id : Nat}
    {graph : Subgraph} (hgraph : arena.graphs[id]? = some graph)
    (hstays : removed (.graph id) = false) : graph.pruned gone id = graph.pruned removed id := by
  have hgraphStays := (hremoved.false_iff _).mp hstays
  have hstates : ∀ place, gone (.state id place) = removed (.state id place) := by
    intro place
    rw [Bool.eq_iff_iff, hgone, hremoved, removed_state]
    exact (or_iff_left hgraphStays).symm
  have hlost : ∀ place, arena.Removed targets (.state id place) →
      lowerPlace (fun place => removed (.state id place)) place = none :=
    fun place hgoes => lowerPlace_of_gone _ ((hremoved _).mpr hgoes)
  -- Only the states that stay are compared; the others are dropped with what was pruned in them.
  have hkept : keep (fun place => removed (.state id place))
      (graph.states.mapIdx (State.pruned gone id)) =
        keep (fun place => removed (.state id place))
          (graph.states.mapIdx (State.pruned removed id)) := by
    apply keep_mapIdx_congr
    intro place state hstate hplace
    exact state_pruned_removed hgone hremoved (state_eq_ok.mpr ⟨graph, hgraph, hstate⟩) hplace
  rw [Subgraph.pruned, Subgraph.pruned]
  simp only [hstates, hkept]
  rw [Subgraph.mk.injEq]
  refine ⟨rfl, filterMap_keep_congr fun index edge hedge => ?_, rfl, rfl⟩
  by_cases hends : arena.Removed targets (.state id edge.source) ∨
      arena.Removed targets (.state id edge.target)
  · exact .inr (Edge.rename_eq_none (hends.imp (hlost _) (hlost _)))
  · left
    rw [Bool.eq_iff_iff, hgone, hremoved, removed_between hgraph hedge hgraphStays]
    exact (or_iff_left hends).symm

/-- A graph is met after pruning as long as it is not removed with what owns it. -/
theorem WellFormed.mem_iff_stays (h : arena.WellFormed)
    (hgone : Tells gone targets)
    (htargets : ∀ id, ¬ targets (.graph id)) {met : List Nat}
    (hreach : (arena.pruned gone).Reaches met) {id : Nat} (hid : id < arena.graphs.length) :
    id ∈ met ↔ ¬ arena.Removed targets (.graph id) := by
  induction id using Nat.strong_induction_on with
  | _ id ih =>
      rw [removed_graph, or_iff_right (htargets id)]
      rcases Nat.eq_zero_or_pos id with rfl | hpos
      · obtain ⟨rest, rfl⟩ := hreach.head
        apply iff_of_true List.mem_cons_self
        rintro ⟨location, howns, _⟩
        exact absurd (h.lt_of_owns howns).1 (Nat.not_lt_zero _)
      · obtain ⟨location, _, hunique⟩ := h.owned id hpos hid
        have howns := (hunique location).mpr rfl
        have hlt := (h.lt_of_owns howns).1
        have hparent : location.graph ∈ met ↔ ¬ arena.Removed targets (.graph location.graph) :=
          ih location.graph hlt (by omega)
        have hlocation : arena.Removed targets (.ofLocation location) ↔
            targets (.ofLocation location) ∨ targets (.state location.graph location.state) ∨
              arena.Removed targets (.graph location.graph) := by
          rw [Element.ofLocation, removed_node, removed_state]
        -- The graph stays with its one owner, which lies in a graph with a lower index.
        have hstays : ¬ arena.Removed targets (.ofLocation location) ↔
            location.graph ∈ met ∧ gone (.state location.graph location.state) = false ∧
              gone (.ofLocation location) = false := by
          rw [hlocation, hparent, hgone.false_iff, hgone.false_iff]
          tauto
        rw [hreach.mem_iff_owner hpos]
        constructor
        · rintro ⟨other, hother, hmet⟩ ⟨owner, howner, hgoes⟩
          obtain rfl := (hunique other).mp hother
          obtain rfl := (hunique owner).mp howner
          exact hstays.mpr hmet hgoes
        · intro hnone
          exact ⟨location, howns, hstays.mp fun hgoes => hnone ⟨location, howns, hgoes⟩⟩

/-- Pruning the targets and renumbering the arena deletes all that is removed with them. -/
theorem WellFormed.renumber_pruned (h : arena.WellFormed)
    (hgone : Tells gone targets)
    (hremoved : Tells removed (arena.Removed targets))
    (htargets : ∀ id, ¬ targets (.graph id)) :
    (arena.pruned gone).renumber = arena.deleted removed := by
  obtain ⟨met, hsublist, hreach⟩ := h.reaches_pruned gone
  have hmet : met = (List.range arena.graphs.length).filter fun id => !removed (.graph id) := by
    rw [← filter_mem_of_sublist hsublist List.nodup_range]
    apply List.filter_congr
    intro id hid
    rw [Bool.eq_iff_iff, decide_eq_true_iff,
      h.mem_iff_stays hgone htargets hreach (List.mem_range.mp hid), ← hremoved]
    simp
  -- In a graph that is met, pruning the targets loses the same as pruning all that is removed.
  have hkept : (met.filterMap fun id => (arena.pruned gone).graphs[id]?) =
      keep (fun id => removed (.graph id)) (arena.pruned removed).graphs := by
    rw [hmet, ← pruned_length gone, ← keep_eq_filterMap, pruned, pruned]
    exact keep_mapIdx_congr fun id graph hgraph hstays =>
      pruned_removed hgone hremoved hgraph hstays
  rw [renumber, order_eq hreach.walk hreach.nodup hreach.inside, deleted]
  refine congrArg (fun graphs => recordOwners ⟨graphs⟩) ?_
  rw [← hkept]
  refine List.map_congr_left fun graph hgraph => renameNested_congr fun nested hnested => ?_
  obtain ⟨id, hid, hfound⟩ := List.mem_filterMap.mp hgraph
  have hinside := hreach.inside nested (hreach.children_mem hid hfound nested hnested)
  rw [pruned_length] at hinside
  rw [hmet]
  exact idxOf?_filter_range hinside

end Pruning

end Arena

end DataflowEditor
