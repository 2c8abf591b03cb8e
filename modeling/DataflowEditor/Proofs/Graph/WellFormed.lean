import DataflowEditor.Proofs.Graph.Walk

/-! # Well-formed arenas

An arena is well formed when its graphs stand in depth-first order, when every graph but the root is
owned by exactly one node and has that node on record, and when every edge joins two elements of its
container. The same is said of a part of an arena: consecutive graphs that are the nests of some
roots, one after the other. Decoding and renumbering build an arena out of such parts.
-/

namespace DataflowEditor

/-! ## Owners -/

/-- The owners among nodes of a state that stand from `place` on. -/
def State.ownersFrom (graph state place : Nat) (nodes : List Node) : List (Nat × Location) :=
  (nodes.zipIdx place).filterMap fun (node, index) =>
    node.nested.map fun nested => (nested, ⟨graph, state, index⟩)

/-- The owners in states of a graph that stand from `place` on. -/
def Subgraph.ownersFrom (graph place : Nat) (states : List State) : List (Nat × Location) :=
  (states.zipIdx place).flatMap fun (state, place) =>
    State.ownersFrom graph place 0 state.nodes

theorem State.ownersFrom_cons (graph state place : Nat) (node : Node) (rest : List Node) :
    State.ownersFrom graph state place (node :: rest) =
      (node.nested.map fun nested => (nested, ⟨graph, state, place⟩)).toList ++
        State.ownersFrom graph state (place + 1) rest := by
  rw [ownersFrom, List.zipIdx_cons, ownersFrom]
  cases hnested : node.nested <;> simp [hnested]

theorem Subgraph.ownersFrom_cons (graph place : Nat) (state : State) (rest : List State) :
    Subgraph.ownersFrom graph place (state :: rest) =
      State.ownersFrom graph place 0 state.nodes ++
        Subgraph.ownersFrom graph (place + 1) rest := by
  rw [ownersFrom, List.zipIdx_cons, List.flatMap_cons, ownersFrom]

/-- The owner list of a state names the graphs nested in its nodes, in order. -/
theorem State.ownersFrom_fst (graph state place : Nat) (nodes : List Node) :
    (State.ownersFrom graph state place nodes).map Prod.fst = nodes.filterMap Node.nested := by
  induction nodes generalizing place with
  | nil => rfl
  | cons node rest ih =>
      rw [ownersFrom_cons, List.map_append, ih]
      cases hnested : node.nested <;> simp [hnested]

/-- The owner list of a graph names the graphs nested in its states, in order. -/
theorem Subgraph.ownersFrom_fst (graph place : Nat) (states : List State) :
    (Subgraph.ownersFrom graph place states).map Prod.fst =
      states.flatMap fun state => state.nodes.filterMap Node.nested := by
  induction states generalizing place with
  | nil => rfl
  | cons state rest ih =>
      rw [ownersFrom_cons, List.map_append, ih, State.ownersFrom_fst, List.flatMap_cons]

namespace Arena

theorem ownersIn_eq (id : Nat) (graph : Subgraph) :
    ownersIn id graph = Subgraph.ownersFrom id 0 graph.states :=
  rfl

theorem ownersIn_fst (id : Nat) (graph : Subgraph) :
    (ownersIn id graph).map Prod.fst = graph.children := by
  rw [ownersIn_eq, Subgraph.ownersFrom_fst, Subgraph.children]

theorem mem_ownersIn {id nested : Nat} {graph : Subgraph} {location : Location} :
    (nested, location) ∈ ownersIn id graph ↔
      location.graph = id ∧ ∃ state node, graph.states[location.state]? = some state ∧
        state.nodes[location.node]? = some node ∧ node.nested = some nested := by
  obtain ⟨place, state, index⟩ := location
  simp only [ownersIn, List.mem_flatMap, List.mem_filterMap, Prod.exists,
    List.mk_mem_zipIdx_iff_getElem?, Option.map_eq_some_iff, Prod.mk.injEq, Location.mk.injEq]
  constructor
  · rintro ⟨state, _, hstate, node, _, hnode, _, hnested, rfl, rfl, rfl, rfl⟩
    exact ⟨rfl, state, node, hstate, hnode, hnested⟩
  · rintro ⟨rfl, found, node, hstate, hnode, hnested⟩
    exact ⟨found, state, hstate, node, index, hnode, nested, hnested, rfl, rfl, rfl, rfl⟩

variable {arena : Arena}

/-- The node at a location owns a graph. -/
def Owns (arena : Arena) (location : Location) (id : Nat) : Prop :=
  ∃ node, arena.node location = .ok node ∧ node.nested = some id

/-- Looking a graph up succeeds exactly on the indices that are there. -/
theorem graph_eq_ok {id : Nat} {graph : Subgraph} :
    arena.graph id = .ok graph ↔ arena.graphs[id]? = some graph := by
  rw [Arena.graph]
  cases arena.graphs[id]? <;> simp

theorem state_eq_ok {id place : Nat} {state : State} :
    arena.state id place = .ok state ↔
      ∃ graph, arena.graphs[id]? = some graph ∧ graph.states[place]? = some state := by
  rw [Arena.state]
  cases hgraph : arena.graph id with
  | error =>
      have hnone : ∀ graph, arena.graphs[id]? ≠ some graph := by
        intro graph h
        rw [graph_eq_ok.mpr h] at hgraph
        cases hgraph
      simp [bind, Except.bind, hnone]
  | ok graph =>
      rw [graph_eq_ok] at hgraph
      cases hstate : graph.states[place]? <;> simp [bind, Except.bind, hgraph, hstate]

theorem node_eq_ok {location : Location} {node : Node} :
    arena.node location = .ok node ↔
      ∃ graph state, arena.graphs[location.graph]? = some graph ∧
        graph.states[location.state]? = some state ∧
        state.nodes[location.node]? = some node := by
  rw [Arena.node]
  cases hstate : arena.state location.graph location.state with
  | error =>
      have hnone : ∀ graph, arena.graphs[location.graph]? = some graph →
          ∀ state, graph.states[location.state]? ≠ some state := by
        intro graph hgraph state h
        rw [state_eq_ok.mpr ⟨graph, hgraph, h⟩] at hstate
        cases hstate
      simp only [bind, Except.bind, reduceCtorEq, false_iff, not_exists, not_and]
      exact fun graph state hgraph hfound => absurd hfound (hnone graph hgraph state)
  | ok state =>
      obtain ⟨graph, hgraph, hfound⟩ := state_eq_ok.mp hstate
      cases hnode : state.nodes[location.node]? <;>
        simp [bind, Except.bind, hgraph, hfound, hnode]

/-- Who owns a graph can be read off the owner list of one graph. -/
theorem owns_iff {location : Location} {id : Nat} :
    arena.Owns location id ↔ ∃ graph, arena.graphs[location.graph]? = some graph ∧
      (id, location) ∈ ownersIn location.graph graph := by
  simp only [Owns, node_eq_ok, mem_ownersIn, true_and]
  constructor
  · rintro ⟨node, ⟨graph, state, hgraph, hstate, hnode⟩, hnested⟩
    exact ⟨graph, hgraph, state, node, hstate, hnode, hnested⟩
  · rintro ⟨graph, hgraph, state, node, hstate, hnode, hnested⟩
    exact ⟨node, ⟨graph, state, hgraph, hstate, hnode⟩, hnested⟩

/-- The children of a graph are the graphs owned at a location inside it. -/
theorem mem_childrenAt {parent id : Nat} :
    id ∈ arena.childrenAt parent ↔ ∃ graph, arena.graphs[parent]? = some graph ∧
      ∃ location, (id, location) ∈ ownersIn parent graph := by
  cases hgraph : arena.graphs[parent]? with
  | none => simp [childrenAt, hgraph]
  | some graph => simp [childrenAt, hgraph, ← ownersIn_fst parent graph]

end Arena

/-! ## Edges -/

/-- Every edge of the state joins two of its nodes. -/
def State.EdgesInside (state : State) : Prop :=
  ∀ edge ∈ state.edges, edge.source < state.nodes.length ∧ edge.target < state.nodes.length

/-- Every edge of the graph joins two of its states, and every edge of a state two of its nodes. -/
structure Subgraph.EdgesInside (graph : Subgraph) : Prop where
  between : ∀ edge ∈ graph.edges,
    edge.source < graph.states.length ∧ edge.target < graph.states.length
  within : ∀ state ∈ graph.states, state.EdgesInside

/-! ## Parts of an arena in order -/

namespace Arena

variable {arena : Arena}

/-- The `count` graphs from index `start` on are the nests of the roots, in depth-first order. Each
root has the owner given with it on record, each graph below them the node that owns it. -/
structure InOrder (arena : Arena) (start count : Nat) (roots : List (Nat × Option Location)) :
    Prop where
  walk : Walks arena.childrenAt (roots.map Prod.fst) (List.range' start count)
  roots : ∀ root ∈ roots, arena.graphs[root.1]?.map Subgraph.owner = some root.2
  owners : ∀ id ∈ List.range' start count, ∀ graph, arena.graphs[id]? = some graph →
    ∀ owner ∈ ownersIn id graph, arena.recordedOwner owner.1 = some owner.2
  edges : ∀ id ∈ List.range' start count, ∀ graph, arena.graphs[id]? = some graph →
    graph.EdgesInside

/-- The owners of graphs as roots of what they own. -/
def nestedRoots (owners : List (Nat × Location)) : List (Nat × Option Location) :=
  owners.map (Prod.map id some)

@[simp]
theorem nestedRoots_fst (owners : List (Nat × Location)) :
    (nestedRoots owners).map Prod.fst = owners.map Prod.fst := by
  simp [nestedRoots]

@[simp]
theorem nestedRoots_append (first second : List (Nat × Location)) :
    nestedRoots (first ++ second) = nestedRoots first ++ nestedRoots second :=
  List.map_append

theorem recordedOwner_eq_some {id : Nat} {location : Location} :
    arena.recordedOwner id = some location ↔
      arena.graphs[id]?.map Subgraph.owner = some (some location) := by
  cases h : arena.graphs[id]? <;> simp [recordedOwner, h]

namespace InOrder

theorem nil (start : Nat) : arena.InOrder start 0 [] where
  walk := .done
  roots := by simp
  owners := by simp
  edges := by simp

/-- Two trees that follow one another in the arena are in order together. -/
theorem append {start front back : Nat} {first second : List (Nat × Option Location)}
    (hfirst : arena.InOrder start front first)
    (hsecond : arena.InOrder (start + front) back second) :
    arena.InOrder start (front + back) (first ++ second) := by
  have hsplit : ∀ id ∈ List.range' start (front + back),
      id ∈ List.range' start front ∨ id ∈ List.range' (start + front) back := by
    intro id hid
    rwa [← List.range'_append_1, List.mem_append] at hid
  refine ⟨?_, ?_, ?_, ?_⟩
  · rw [List.map_append]
    exact hfirst.walk.append_range' hsecond.walk
  · intro root hroot
    exact (List.mem_append.mp hroot).elim (hfirst.roots root) (hsecond.roots root)
  · intro id hid
    exact (hsplit id hid).elim (hfirst.owners id) (hsecond.owners id)
  · intro id hid
    exact (hsplit id hid).elim (hfirst.edges id) (hsecond.edges id)

/-- A graph stands in front of the nests of the graphs that its nodes own. -/
theorem root {id count : Nat} {graph : Subgraph} (hgraph : arena.graphs[id]? = some graph)
    (hedges : graph.EdgesInside)
    (hnested : arena.InOrder (id + 1) count (nestedRoots (ownersIn id graph))) :
    arena.InOrder id (count + 1) [(id, graph.owner)] := by
  refine ⟨?_, ?_, ?_, ?_⟩
  · rw [List.range'_succ]
    refine .visit ?_
    have hwalk := hnested.walk
    rw [nestedRoots_fst, ownersIn_fst] at hwalk
    simpa [childrenAt, hgraph] using hwalk
  · simp [hgraph]
  · intro other hother found hfound owner howner
    rw [List.range'_succ, List.mem_cons] at hother
    rcases hother with rfl | hother
    · obtain rfl := Option.some.inj (hgraph.symm.trans hfound)
      have hroot := hnested.roots (owner.1, some owner.2) (List.mem_map_of_mem howner)
      exact recordedOwner_eq_some.mpr hroot
    · exact hnested.owners other hother found hfound owner howner
  · intro other hother found hfound
    rw [List.range'_succ, List.mem_cons] at hother
    rcases hother with rfl | hother
    · obtain rfl := Option.some.inj (hgraph.symm.trans hfound)
      exact hedges
    · exact hnested.edges other hother found hfound

end InOrder

/-! ## Whole arenas -/

/-- Depth-first order, recorded owners and edges of a whole arena. -/
structure WellFormed (arena : Arena) : Prop where
  /-- There is a root, and no node owns it. -/
  root : arena.graphs[0]?.map Subgraph.owner = some none
  /-- Every other graph is owned by one node, which it has on record. -/
  owned : ∀ id, 0 < id → id < arena.graphs.length →
    ∃ location, arena.recordedOwner id = some location ∧
      ∀ other, arena.Owns other id ↔ other = location
  /-- A depth-first walk from the root meets all graphs, in the order of their indices. -/
  preorder : Walks arena.childrenAt [0] (List.range arena.graphs.length)
  edges : ∀ graph ∈ arena.graphs, graph.EdgesInside

/-- An arena that is one tree in order, the root first and unowned, is well-formed. -/
theorem InOrder.wellFormed (h : arena.InOrder 0 arena.graphs.length [(0, none)]) :
    arena.WellFormed := by
  have hwalk : Walks arena.childrenAt [0] (List.range arena.graphs.length) := by
    rw [List.range_eq_range']
    exact h.walk
  refine ⟨h.roots (0, none) List.mem_cons_self, ?_, hwalk, ?_⟩
  · intro id hpos hlt
    have hmem := (hwalk.mem_iff id).mp (List.mem_range.mpr hlt)
    obtain ⟨parent, _, hchild⟩ := hmem.resolve_left (by simpa using hpos.ne')
    obtain ⟨graph, hgraph, location, howner⟩ := mem_childrenAt.mp hchild
    -- The record names every owner of the graph, so there is only one.
    have hrecord : ∀ other, arena.Owns other id → arena.recordedOwner id = some other := by
      intro other hother
      obtain ⟨found, hfound, hmem⟩ := owns_iff.mp hother
      have hinside := (List.getElem?_eq_some_iff.mp hfound).1
      exact h.owners _ (by simpa using hinside) found hfound _ hmem
    have howns : arena.Owns location id := by
      obtain ⟨rfl, _⟩ := mem_ownersIn.mp howner
      exact owns_iff.mpr ⟨graph, hgraph, howner⟩
    refine ⟨location, hrecord location howns, fun other => ⟨fun hother => ?_, ?_⟩⟩
    · exact Option.some.inj ((hrecord other hother).symm.trans (hrecord location howns))
    · rintro rfl
      exact howns
  · intro graph hgraph
    obtain ⟨id, hid⟩ := List.mem_iff_getElem?.mp hgraph
    have hinside := (List.getElem?_eq_some_iff.mp hid).1
    exact h.edges id (by simpa using hinside) graph hid

namespace WellFormed

/-- A graph comes behind the graph that holds its owner. -/
theorem lt_of_owns (h : arena.WellFormed) {location : Location} {id : Nat}
    (howns : arena.Owns location id) : location.graph < id ∧ id < arena.graphs.length := by
  obtain ⟨graph, hgraph, hmem⟩ := owns_iff.mp howns
  have hparent : location.graph ∈ List.range arena.graphs.length :=
    List.mem_range.mpr (List.getElem?_eq_some_iff.mp hgraph).1
  have hchild : id ∈ arena.childrenAt location.graph :=
    mem_childrenAt.mpr ⟨graph, hgraph, location, hmem⟩
  refine ⟨h.preorder.lt_of_mem_children List.pairwise_lt_range hparent hchild, ?_⟩
  exact List.mem_range.mp ((h.preorder.mem_iff id).mpr (.inr ⟨_, hparent, hchild⟩))

/-- The recorded owner of a graph is the node that owns it. -/
theorem recordedOwner_eq_some_iff (h : arena.WellFormed) {location : Location} {id : Nat} :
    arena.recordedOwner id = some location ↔ arena.Owns location id := by
  constructor
  · intro hrecord
    have hlt : id < arena.graphs.length := by
      by_contra hge
      simp [recordedOwner, List.getElem?_eq_none (Nat.le_of_not_lt hge)] at hrecord
    rcases Nat.eq_zero_or_pos id with rfl | hpos
    · have hroot := h.root
      rw [recordedOwner_eq_some.mp hrecord] at hroot
      cases Option.some.inj hroot
    · obtain ⟨owner, howner, hunique⟩ := h.owned id hpos hlt
      obtain rfl := Option.some.inj (howner.symm.trans hrecord)
      exact (hunique _).mpr rfl
  · intro howns
    obtain ⟨hlt, hinside⟩ := h.lt_of_owns howns
    obtain ⟨owner, howner, hunique⟩ := h.owned id (by omega) hinside
    rw [(hunique location).mp howns]
    exact howner

/-- A well-formed arena is one tree in order. -/
theorem inOrder (h : arena.WellFormed) : arena.InOrder 0 arena.graphs.length [(0, none)] := by
  refine ⟨?_, ?_, ?_, ?_⟩
  · rw [← List.range_eq_range']
    exact h.preorder
  · simpa using h.root
  · intro id _ graph hgraph owner howner
    refine h.recordedOwner_eq_some_iff.mpr (owns_iff.mpr ?_)
    obtain ⟨rfl, _⟩ := mem_ownersIn.mp howner
    exact ⟨graph, hgraph, howner⟩
  · intro id _ graph hgraph
    exact h.edges graph (List.mem_of_getElem? hgraph)

end WellFormed

end Arena

end DataflowEditor
