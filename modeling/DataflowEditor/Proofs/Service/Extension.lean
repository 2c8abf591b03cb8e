import DataflowEditor.Proofs.Graph.Growth
import DataflowEditor.Proofs.Json.Fields
import DataflowEditor.Proofs.Service.Session

/-! # What an insertion adds

Each kind of insertion puts what was asked for behind the other elements of the container that the
request names, and leaves everything else as it was. Only two kinds reach further: a nested graph is
numbered among the others, and a data node gives its graph a data container if it has none to offer.
The addresses in the answer are those of the new elements as they are numbered then.
-/

namespace DataflowEditor

/-- The nodes at a place and behind it open and close a scope. -/
structure NewScope.Spans (scope : NewScope) (index : Nat) (entry exit : Node) : Prop where
  kinds : entry.kind = scope.entry ∧ exit.kind = scope.exit
  unowning : entry.nested = none ∧ exit.nested = none
  opened : entry.fields.value? "scope_entry" = some .null ∧
    exit.fields.value? "scope_entry" = some (.str (Text.decimal index))
  closed : ∀ node ∈ [entry, exit],
    node.fields.value? "scope_exit" = some (.str (Text.decimal (index + 1)))

/-- Attributes with a data container of that name: they are left alone if they have containers, and
get their only one otherwise. -/
inductive Fields.Stocked (before : Fields) : Fields → String → Prop
  | kept {name : String} {container : Json} {rest : Fields} :
      before.value? "_arrays" = some (.obj ((name, container) :: rest)) →
      Stocked before before name
  | new {after : Fields} :
      (∀ first rest, before.value? "_arrays" ≠ some (.obj (first :: rest))) →
      after.value? "_arrays" = some (.obj [("tmp", newArray "float64")]) →
      (∀ key ≠ "_arrays", after.values key = before.values key) → Stocked before after "tmp"

/-- The graph has a data container of that name afterwards. Attributes are made if there are none,
and no other field changes. -/
structure Subgraph.Stocked (before after : Subgraph) (name : String) : Prop where
  attributes : ∃ attributes, after.fields.value? "attributes" = some (.obj attributes) ∧
    (before.attributes?.getD []).Stocked attributes name
  others : ∀ key ≠ "attributes", after.fields.values key = before.fields.values key

/-! ## New fields -/

/-- The two nodes made for a scope open and close it. -/
theorem NewScope.spans (scope : NewScope) (index : Nat) :
    scope.Spans index ⟨none, scope.entryFields index⟩ ⟨none, scope.exitFields index⟩ where
  kinds := ⟨rfl, rfl⟩
  unowning := ⟨rfl, rfl⟩
  opened := ⟨rfl, rfl⟩
  closed := by
    rintro node hnode
    rcases List.mem_pair.mp hnode with rfl | rfl <;> rfl

/-- The graph in a new nested node has no states. -/
theorem newNestedGraph_decode (next : Nat) (location : Location) : ∃ fields,
    newNestedGraph = .obj (fields ++ [("nodes", .arr []), ("edges", .arr [])]) ∧
      ∀ inner, newNestedGraph = .obj inner → Subgraph.decode next (some location) inner =
        .ok [⟨[], [], some location, fields⟩] := by
  refine ⟨[_, _], rfl, fun inner hinner => ?_⟩
  cases hinner
  rfl

theorem Json.bind_asObject?_eq_some {value : Option Json} {members : Fields} :
    value.bind Json.asObject? = some members ↔ value = some (.obj members) := by
  rw [Option.bind_eq_some_iff]
  constructor
  · rintro ⟨document, rfl, hobject⟩
    cases document with
    | obj found => exact congrArg (some ∘ Json.obj) (Option.some.inj hobject)
    | _ => cases hobject
  · rintro rfl
    exact ⟨_, rfl, rfl⟩

/-- Attributes with containers keep them, and others get one. -/
theorem withContainer_stocked (attributes : Fields) :
    attributes.Stocked (withContainer attributes).1 (withContainer attributes).2 := by
  unfold withContainer
  split
  next name container rest harrays => exact .kept (Json.bind_asObject?_eq_some.mp harrays)
  next hnone =>
    refine .new (fun first rest hsome => ?_) (Fields.value?_put_self _ _ _) fun key hkey => ?_
    · exact hnone first.1 first.2 rest (Json.bind_asObject?_eq_some.mpr hsome)
    · rw [Fields.values_put, if_neg hkey]

theorem withData_stocked {graph after : Subgraph}
    (h : after.fields = graph.fields.modifyAttributes fun attributes =>
      (withContainer attributes).1) :
    graph.Stocked after (withContainer (graph.attributes?.getD [])).2 where
  attributes := by
    refine ⟨_, ?_, withContainer_stocked (graph.attributes?.getD [])⟩
    rw [h, Fields.modifyAttributes, Fields.value?_put_self]
    rfl
  others := fun key hkey => by rw [h, Fields.modifyAttributes, Fields.values_put, if_neg hkey]

namespace Arena

variable {arena before after : Arena}

/-- The graph that states are put into: a graph itself, or the one that a node owns. -/
inductive TakesStates (arena : Arena) : Element → Nat → Prop
  | graph (id : Nat) : TakesStates arena (.graph id) id
  | node {location : Location} {id : Nat} :
      arena.Owns location id → TakesStates arena (.ofLocation location) id

/-- What an accepted request of a kind makes of an arena, and the elements that it answers with. An
edge has no address yet. -/
inductive Gains (before : Arena) (request : InsertionRequest) (after : Arena) :
    InsertKind → List Element → Prop
  | state {parent : Element} {id : Nat} {graph : Subgraph} :
      before.locateParent request.parent = .ok parent → before.TakesStates parent id →
      before.graphs[id]? = some graph →
      before.Extends after (fun id => id) none [.state id graph.states.length] →
      after.state id graph.states.length =
        .ok ⟨[], [], newState ("state_" ++ Text.decimal graph.states.length)⟩ →
      Gains before request after .state [.state id graph.states.length]
  | plain {kind : NodeKind} {fields : Fields} {id place : Nat} {state : State} :
      kind.plainFields? = some fields →
      before.locateParent request.parent = .ok (.state id place) →
      before.state id place = .ok state →
      before.Extends after (fun id => id) none [.node id place state.nodes.length] →
      after.node ⟨id, place, state.nodes.length⟩ = .ok ⟨none, fields⟩ →
      Gains before request after (.node kind) [.node id place state.nodes.length]
  | access {id place : Nat} {graph stocked : Subgraph} {state : State} {name : String} :
      before.locateParent request.parent = .ok (.state id place) →
      before.graphs[id]? = some graph → before.state id place = .ok state →
      before.Extends after (fun id => id) (some id) [.node id place state.nodes.length] →
      after.graphs[id]? = some stocked → graph.Stocked stocked name →
      after.node ⟨id, place, state.nodes.length⟩ = .ok ⟨none, newAccessNode name⟩ →
      Gains before request after (.node .access) [.node id place state.nodes.length]
  | scope {kind : NodeKind} {scope : NewScope} {id place : Nat} {state : State}
      {entry exit : Node} :
      kind.scope? = some scope →
      before.locateParent request.parent = .ok (.state id place) →
      before.state id place = .ok state →
      before.Extends after (fun id => id) none
        [.node id place state.nodes.length, .node id place (state.nodes.length + 1)] →
      after.node ⟨id, place, state.nodes.length⟩ = .ok entry →
      after.node ⟨id, place, state.nodes.length + 1⟩ = .ok exit →
      scope.Spans state.nodes.length entry exit →
      Gains before request after (.node kind)
        [.node id place state.nodes.length, .node id place (state.nodes.length + 1)]
  | nested {id place new : Nat} {state : State} {fields : Fields} :
      before.locateParent request.parent = .ok (.state id place) →
      before.state id place = .ok state → id < new → new ≤ before.graphs.length →
      before.Extends after (numberWith new) none
        [.node id place state.nodes.length, .graph new] →
      after.node ⟨id, place, state.nodes.length⟩ = .ok ⟨some new, newNestedNode⟩ →
      newNestedGraph = .obj (fields ++ [("nodes", .arr []), ("edges", .arr [])]) →
      after.graphs[new]? = some ⟨[], [], some ⟨id, place, state.nodes.length⟩, fields⟩ →
      Gains before request after (.node .nested) [.node id place state.nodes.length]
  | joinNodes {start : String} {holder : Option Element} {id place source target : Nat}
      {state joined : State} :
      request.start = some start →
      before.locateText start = .ok ⟨.node id place source, holder⟩ →
      before.locateParent request.parent = .ok (.node id place target) →
      before.state id place = .ok state →
      before.Extends after (fun id => id) none [.edge id (some place) state.edges.length] →
      after.state id place = .ok joined →
      joined.edges[state.edges.length]? = some ⟨source, target, newStateEdge⟩ →
      Gains before request after .edge []
  | joinStates {start : String} {holder : Option Element} {id source target : Nat}
      {graph joined : Subgraph} :
      request.start = some start →
      before.locateText start = .ok ⟨.state id source, holder⟩ →
      before.locateParent request.parent = .ok (.state id target) →
      before.graphs[id]? = some graph →
      before.Extends after (fun id => id) none [.edge id none graph.edges.length] →
      after.graphs[id]? = some joined →
      joined.edges[graph.edges.length]? = some ⟨source, target, newInterstateEdge⟩ →
      Gains before request after .edge []

theorem modifyGraph_modifyGraph (id : Nat) (change next : Subgraph → Subgraph) :
    (arena.modifyGraph id change).modifyGraph id next =
      arena.modifyGraph id (next ∘ change) := by
  rw [modifyGraph, modifyGraph, modifyGraph, List.modify_modify_eq]

/-! ## New nodes -/

section NewNodes

variable {id place : Nat} {graph : Subgraph} {state : State}

/-- An added node is found where it was put, also when another one is put behind it. -/
theorem node_modifyState {index : Nat} {node : Node} (h : arena.state id place = .ok state)
    {change : State → State} (hnode : (change state).nodes[index]? = some node) :
    (arena.modifyState id place change).node ⟨id, place, index⟩ = .ok node := by
  obtain ⟨graph, hgraph, hplace⟩ := state_eq_ok.mp (state_modifyState h change)
  exact node_eq_ok.mpr ⟨graph, _, hgraph, hplace, hnode⟩

theorem WellFormed.extends_pushNode (h : arena.WellFormed)
    (hstate : arena.state id place = .ok state) {node : Node} (hnested : node.nested = none) :
    arena.Extends (arena.modifyState id place (·.pushNode node)) (fun id => id) none
      [.node id place state.nodes.length] := by
  obtain ⟨graph, hgraph, hplace⟩ := state_eq_ok.mp hstate
  exact extends_modifyGraph (h.pushNode id place hnested) hgraph
    (graph.grows_modify hplace (·.pushNode node) (state.grows_pushNode id place node)) fun _ => rfl

theorem WellFormed.extends_pushNode_pushNode (h : arena.WellFormed)
    (hstate : arena.state id place = .ok state) {first second : Node}
    (hfirst : first.nested = none) (hsecond : second.nested = none) :
    arena.Extends ((arena.modifyState id place (·.pushNode first)).modifyState id place
      (·.pushNode second)) (fun id => id) none
        [.node id place state.nodes.length, .node id place (state.nodes.length + 1)] := by
  obtain ⟨graph, hgraph, hplace⟩ := state_eq_ok.mp hstate
  have hwell := (h.pushNode id place hfirst).pushNode id place hsecond
  have hone := graph.grows_modify hplace (·.pushNode first) (state.grows_pushNode id place first)
  have htwo : Subgraph.Grows id [.node id place (state.pushNode first).nodes.length]
      { graph with states := graph.states.modify place (·.pushNode first) }
      { graph with
        states := (graph.states.modify place (·.pushNode first)).modify place
          (·.pushNode second) } :=
    Subgraph.grows_modify (by simp [hplace]) (·.pushNode second)
      ((state.pushNode first).grows_pushNode id place second)
  have hboth := hone.trans htwo
  rw [State.pushNode, List.length_append, List.length_singleton] at hboth
  rw [modifyState_eq, modifyState_eq, modifyGraph_modifyGraph] at hwell ⊢
  exact extends_modifyGraph hwell hgraph hboth fun _ => rfl

theorem WellFormed.withData (h : arena.WellFormed) (id : Nat) : (arena.withData id).WellFormed := by
  refine h.modifyGraph fun graph hgraph => ⟨rfl, rfl, ?_⟩
  have hinside := h.edges graph (List.mem_of_getElem? hgraph)
  exact ⟨hinside.between, hinside.within⟩

/-- First the fields of the graph may change, then a state gets a node. -/
theorem WellFormed.extends_access (h : arena.WellFormed) (hgraph : arena.graphs[id]? = some graph)
    (hplace : graph.states[place]? = some state) {node : Node} (hnested : node.nested = none) :
    arena.Extends ((arena.withData id).modifyState id place (·.pushNode node)) (fun id => id)
      (some id) [.node id place state.nodes.length] := by
  have hwell := (h.withData id).pushNode id place hnested
  have hpushed := graph.grows_modify hplace (·.pushNode node) (state.grows_pushNode id place node)
  have hgrown := hpushed.trans (Subgraph.grows_fields id _
    (graph.fields.modifyAttributes fun attributes => (withContainer attributes).1))
  rw [modifyState_eq, Arena.withData, modifyGraph_modifyGraph] at hwell ⊢
  exact extends_modifyGraph hwell hgraph hgrown fun hne => absurd rfl hne

/-- The graph of a new access node has a container for it. -/
theorem stocked_access (hgraph : arena.graphs[id]? = some graph) (node : Node) :
    ∃ stocked, ((arena.withData id).modifyState id place (·.pushNode node)).graphs[id]? =
      some stocked ∧ graph.Stocked stocked (withContainer (graph.attributes?.getD [])).2 := by
  refine ⟨_, graph_modifyGraph (graph_modifyGraph hgraph _) _, withData_stocked ?_⟩
  rfl

end NewNodes

theorem stateContainer_eq_ok {parent : Element} {id : Nat}
    (h : arena.stateContainer parent = .ok id) : arena.TakesStates parent id := by
  cases parent with
  | graph other =>
      cases h
      exact .graph id
  | node other place index =>
      obtain ⟨node, hnode, h⟩ := bind_eq_ok.mp h
      split at h
      next nested hnested =>
        cases h
        exact .node ⟨node, hnode, hnested⟩
      next => cases h
  | _ => cases h

/-- What an insertion makes of an arena is what was asked for. -/
theorem Insertion.gains {request : InsertionRequest} {kind : InsertKind} {result : Arena}
    {elements : List Element} (h : arena.Insertion request kind result elements)
    (hformed : arena.WellFormed) : arena.Gains request result kind elements := by
  cases h with
  | @state parent id graph hparent hcontainer hgraph =>
      refine .state hparent (stateContainer_eq_ok hcontainer) hgraph ?_ (state_pushState hgraph _)
      exact extends_modifyGraph (hformed.pushState id _) hgraph (graph.grows_pushState id _)
        fun _ => rfl
  | @plain kind fields id place state hkind hparent hstate =>
      refine .plain hkind hparent hstate (hformed.extends_pushNode hstate rfl) ?_
      exact node_modifyState hstate (by simp [State.pushNode])
  | @access id place graph state hparent hgraph hplace =>
      have hstate := state_withData hgraph hplace
      obtain ⟨stocked, hfound, hstocked⟩ := stocked_access hgraph _
      exact .access hparent hgraph (state_eq_ok.mpr ⟨graph, hgraph, hplace⟩)
        (hformed.extends_access hgraph hplace rfl) hfound hstocked
        (node_modifyState hstate (by simp [State.pushNode]))
  | @scope kind scope id place state hkind hparent hstate =>
      have hboth := state_modifyState hstate
        (·.pushNode ⟨none, scope.entryFields state.nodes.length⟩)
      exact .scope hkind hparent hstate (hformed.extends_pushNode_pushNode hstate rfl rfl)
        (node_modifyState hboth (by simp [State.pushNode]))
        (node_modifyState hboth (by simp [State.pushNode])) (scope.spans _)
  | @nested id place state inner block hparent hstate hinner hblock =>
      obtain ⟨fields, hfields, hdecode⟩ := newNestedGraph_decode arena.graphs.length
        ⟨id, place, state.nodes.length⟩
      -- The block of the new graph is this one graph, as it has no states.
      rw [hdecode inner hinner] at hblock
      cases hblock
      obtain ⟨new, hlt, hnew, hnode, ⟨owner, hgraph⟩, hextends⟩ :=
        hformed.extends_pushNested hstate newNestedNode (hdecode inner hinner) ⟨rfl, rfl⟩ rfl
      refine .nested hparent hstate hlt hnew hextends hnode hfields ?_
      -- The renumbering recorded the owner anew. In a well-formed arena it can only be the new
      -- node.
      have howner := hextends.wellFormed.recordedOwner_eq_some_iff.mpr ⟨_, hnode, rfl⟩
      rw [recordedOwner, hgraph, Option.bind_some] at howner
      rw [hgraph, ← howner]
  | @joinNodes start holder id place source target state hstart hsource htarget hstate hin hin' =>
      obtain ⟨graph, hgraph, hplace⟩ := state_eq_ok.mp hstate
      refine .joinNodes hstart hsource htarget hstate ?_ (state_modifyState hstate _)
        (by simp [State.pushEdge])
      exact extends_modifyGraph (hformed.connectNodes hstate hin hin') hgraph
        (graph.grows_modify hplace (·.pushEdge _) (state.grows_pushEdge id place _)) fun _ => rfl
  | @joinStates start holder id source target graph hstart hsource htarget hgraph hin hin' =>
      refine .joinStates hstart hsource htarget hgraph ?_ (graph_modifyGraph hgraph _)
        (by simp [Subgraph.pushEdge])
      exact extends_modifyGraph (hformed.connectStates hgraph hin hin') hgraph
        (graph.grows_pushEdge id _) fun _ => rfl

theorem Gains.wellFormed {request : InsertionRequest} {kind : InsertKind}
    {elements : List Element} (h : before.Gains request after kind elements) :
    after.WellFormed := by
  cases h with
  | _ => exact Extends.wellFormed ‹_›

end Arena

/-! ## Answers -/

namespace InsertionRequest

/-- An answer is written from the arena of the graph that was sent, with what was asked for, and
gives the addresses under which that is found. The places in an address are signed words. -/
def MetBy (request : InsertionRequest) (answer : Inserted) : Prop :=
  ∃ before kind after elements, readPayloadOrText request.graph = .ok before ∧
    InsertKind.ofText? request.kind = some kind ∧ answer.graph = after.toJson ∧
    before.Gains request after kind elements ∧
    answer.addresses =
      (if elements.isEmpty then [noAddress] else elements.map Element.toText) ∧
    ∀ element ∈ elements, element.FitsWords →
      ∃ holder, after.locateText element.toText = .ok ⟨element, holder⟩

/-- An accepted request adds what it asks for and nothing else. -/
theorem run_metBy {request : InsertionRequest} {answer : Inserted}
    (hrun : request.run = .ok answer) : request.MetBy answer := by
  obtain ⟨before, kind, after, elements, hread, hkind, hinsertion, rfl⟩ :=
    Change.insertion_eq_ok hrun
  have hformed := readPayloadOrText_wellFormed hread
  have hgains := hinsertion.gains hformed
  refine ⟨before, kind, after, elements, hread, hkind, rfl, hgains, rfl, ?_⟩
  intro element helement hfits
  refine ⟨after.holder? element, ?_⟩
  rw [Arena.locateText_of_ok (Element.ofText_toText hfits)]
  exact hgains.wellFormed.locate_live hfits (hinsertion.live hformed helement)

end InsertionRequest

/-- A graph is put into the first state, in front of the one that the second state has. -/
def nestedInsertion : InsertionRequest :=
  ⟨.obj [("nodes", .arr [.obj [], .obj [("nodes", .arr [.obj [("type", .str "NestedSDFG"),
      ("attributes", .obj [("sdfg", .obj [("nodes", .arr [.obj []])])])]])]])],
    "NestedSDFG", some "0/0/-1/-1", none⟩

theorem nestedInsertion_metBy : ∃ answer, nestedInsertion.run = .ok answer ∧
    answer.addresses = ["0/0/0/-1"] ∧ nestedInsertion.MetBy answer := by
  have haddresses : nestedInsertion.run.map (·.addresses) = .ok ["0/0/0/-1"] := by
    decide +kernel
  cases hrun : nestedInsertion.run with
  | error failure => simp [hrun, Except.map] at haddresses
  | ok answer =>
      rw [hrun] at haddresses
      exact ⟨answer, rfl, Except.ok.inj haddresses, InsertionRequest.run_metBy hrun⟩

end DataflowEditor
