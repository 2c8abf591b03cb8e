import DataflowEditor.Proofs.Graph.Addressing
import DataflowEditor.Proofs.Graph.Erasure
import DataflowEditor.Proofs.Graph.Instrumentation
import DataflowEditor.Proofs.Graph.NormalForm

/-! # The tables of scopes in a document

A state that keeps a table of scopes is written with a table that is made from its nodes. What the
table says is compared here with the nodes that are written beside it: every node is listed once,
under the index that it gives as the entry of its scope. When an entry node is removed the nodes of
its scope come to the top, and all other references follow the nodes that they name.
-/

namespace DataflowEditor

/-! ## Reading a written state -/

/-- The items of a container: the states of a graph, or the nodes of a state. -/
def Json.listed (document : Json) : List Json :=
  document.fields.items "nodes"

/-- The index of the node that opens the scope, if the fields of a node give an index. -/
def Fields.scopeIndex? (fields : Fields) : Option Nat :=
  (fields.value? "scope_entry").bind Json.asIndex?

/-- The table has a list under the key that the place is in. -/
def Fields.Lists (table : Fields) (key : String) (place : Nat) : Prop :=
  ∃ places : List Nat, (key, Json.arr (places.map Json.nat)) ∈ table ∧ place ∈ places

/-- The table sorts the nodes by the scopes that they lie in. -/
structure Fields.Partitions (table : Fields) (nodes : List Json) : Prop where
  keys : (table.map Prod.fst).Nodup
  ascending : ∀ key list, (key, list) ∈ table → ∃ places : List Nat,
    list = .arr (places.map Json.nat) ∧ places ≠ [] ∧ places.Pairwise (· < ·)
  inside : ∀ key place, table.Lists key place → place < nodes.length
  once : ∀ place < nodes.length, ∃! key, table.Lists key place
  top : ∀ place node, nodes[place]? = some node → node.fields.scopeIndex? = none →
    table.Lists "-1" place
  below : ∀ place node entry, nodes[place]? = some node →
    node.fields.scopeIndex? = some entry → entry < halfWordCount →
      table.Lists (Text.decimal entry) place
  /-- An index that is no signed word is taken for a negative one. -/
  beyond : ∀ place node entry, nodes[place]? = some node →
    node.fields.scopeIndex? = some entry → halfWordCount ≤ entry →
      table.Lists (Text.decimalInt (entry - (wordCount : Int))) place

/-- The table lists the nodes of a written state as they are once one of them is gone. -/
structure Json.ListedWithout (state : Json) (removed : Nat) (table : Fields) : Prop where
  /-- The nodes of a scope that is gone come to the top. -/
  freed : ∀ place node, place ≠ removed → state.listed[place]? = some node →
    node.fields.scopeIndex? = some removed → table.Lists "-1" (placeWithout removed place)
  top : ∀ place node, place ≠ removed → state.listed[place]? = some node →
    node.fields.scopeIndex? = none → table.Lists "-1" (placeWithout removed place)
  below : ∀ place node entry, place ≠ removed → state.listed[place]? = some node →
    node.fields.scopeIndex? = some entry → entry ≠ removed → entry < halfWordCount →
      table.Lists (Text.decimal (placeWithout removed entry)) (placeWithout removed place)

/-- The place that a state of a graph has without the element. -/
def Element.placeBeside (element : Element) (id place : Nat) : Nat :=
  match element with
  | .state other removed => if other = id then placeWithout removed place else place
  | _ => place

namespace Arena

/-- The document of a graph inside the document of the arena, found by way of the owners. -/
inductive WritesGraph (arena : Arena) : Nat → Json → Prop
  | root : WritesGraph arena 0 arena.toJson
  | nested {location : Location} {id : Nat} {outer state node inner : Json} :
      WritesGraph arena location.graph outer → arena.Owns location id →
      outer.listed[location.state]? = some state → state.listed[location.node]? = some node →
      node.fields.attributes.value? "sdfg" = some inner → WritesGraph arena id inner

/-- The document of a state inside the document of the arena. -/
def WritesState (arena : Arena) (id place : Nat) (document : Json) : Prop :=
  ∃ graph, arena.WritesGraph id graph ∧ graph.listed[place]? = some document

/-- The tables in the documents of two arenas, the second without an element of the first. -/
structure TablesFollow (arena : Arena) (element : Element) (dropped : Nat → Bool)
    (result : Arena) : Prop where
  /-- The table of a state that loses a node is made anew. -/
  shrunk : ∀ id place index before, element = .node id place index →
    arena.WritesState id place before → ∃ after, result.WritesState id place after ∧
      after.fields.has "scope_dict" = before.fields.has "scope_dict" ∧
        ∀ table, after.fields.value? "scope_dict" = some (.obj table) →
          before.ListedWithout index table
  /-- Every other state that stays keeps its table. -/
  kept : ∀ id place before, arena.WritesState id place before → dropped id = false →
    element ≠ .state id place → (∀ index, element ≠ .node id place index) → ∃ after,
      result.WritesState (id - goneBelow dropped id) (element.placeBeside id place) after ∧
        after.fields.values "scope_dict" = before.fields.values "scope_dict"

/-- What the tables of scopes in the document of an arena say, and what becomes of them. -/
structure TabulatesScopes (arena : Arena) : Prop where
  /-- A state that keeps a table is written with one that sorts the nodes written with it. -/
  table : ∀ id place state, arena.state id place = .ok state →
    state.fields.has "scope_dict" = true → ∃ document table, arena.WritesState id place document ∧
      document.listed.length = state.nodes.length ∧
        document.fields.values "scope_dict" = [.obj table] ∧
          Fields.Partitions table document.listed
  /-- There is one document of a state. -/
  unique : ∀ id place first second, arena.WritesState id place first →
    arena.WritesState id place second → first = second
  erased : ∀ element, arena.contains element = true → (∀ id, element ≠ .graph id) →
    ∃ result dropped, arena.erase element = .ok result ∧
      (∀ id, dropped id = true ↔ arena.LiesBelow element id) ∧
        arena.TablesFollow element dropped result
  /-- A graph is erased with the node that owns it. -/
  graph : ∀ id, 0 < id → id < arena.graphs.length → ∃ location, arena.Owns location id ∧
    arena.erase (.graph id) = arena.erase (.ofLocation location)

end Arena

/-! ## Members of what is written -/

theorem Json.value?_fields (document : Json) (key : String) :
    document.fields.value? key = document.member? key := by
  cases document <;> rfl

theorem Node.scopeIndex?_encode (document : Nat → Json) (place : Nat) (node : Node) :
    (node.encode document place).fields.scopeIndex? = node.fields.scopeIndex? := by
  rw [Fields.scopeIndex?, Json.value?_fields, member?_encode (by decide) (by decide),
    Fields.scopeIndex?]

/-- A node that nests a graph is written with the document of that graph. -/
theorem Node.embedded_encode {node : Node} {id : Nat} (h : node.nested = some id)
    (document : Nat → Json) (place : Nat) :
    (node.encode document place).fields.attributes.value? "sdfg" = some (document id) := by
  rw [encode_of_some h, written_eq, Json.fields, Json.asObject?, Option.getD_some,
    Fields.attributes_put_self, Fields.value?_put_self]

theorem Fields.items_nodes (fields : Fields) (nodes : List Json) (edges : Json) :
    ((fields.put "nodes" (.arr nodes)).put "edges" edges).items "nodes" = nodes := by
  rw [items, asArray_nodes, Option.getD_some]

/-- A written graph lists the documents of its states, each at its place. -/
theorem Subgraph.listed_encode (document : Nat → Json) (id : Nat) (graph : Subgraph) :
    (graph.encode document id).listed =
      graph.states.mapIdx fun place state => state.encode document place :=
  Fields.items_nodes _ _ _

/-- A written state lists the documents of its nodes, each at its place. -/
theorem State.listed_encode (document : Nat → Json) (place : Nat) (state : State) :
    (state.encode document place).listed =
      state.nodes.mapIdx fun index node => node.encode document index :=
  Fields.items_nodes _ _ _

/-- Every node document of a written state is that of a node of the state. -/
theorem State.exists_of_listed {document : Nat → Json} {place index : Nat} {state : State}
    {written : Json} (h : (state.encode document place).listed[index]? = some written) :
    ∃ node, state.nodes[index]? = some node ∧ written = node.encode document index := by
  rw [listed_encode, List.getElem?_mapIdx] at h
  obtain ⟨node, hnode, rfl⟩ := Option.map_eq_some_iff.mp h
  exact ⟨node, hnode, rfl⟩

/-- A state is written with its scope table if it had one, and with none otherwise. -/
theorem State.values_scopes_encode (document : Nat → Json) (place : Nat) (state : State) :
    (state.encode document place).fields.values "scope_dict" =
      if state.fields.has "scope_dict" then [state.scopeTable] else [] := by
  rw [← values_numbered_scopes place state, encode, Json.fields, Json.asObject?, Option.getD_some,
    Fields.values_put, if_neg (by decide), Fields.values_put, if_neg (by decide)]

theorem State.has_scopes_encode (document : Nat → Json) (place : Nat) (state : State) :
    (state.encode document place).fields.has "scope_dict" = state.fields.has "scope_dict" := by
  rw [Fields.has_eq_of_values, values_scopes_encode]
  cases state.fields.has "scope_dict" <;> rfl

/-! ## What a table lists -/

theorem Json.map_nat_injective : Function.Injective (List.map Json.nat) :=
  List.map_injective_iff.mpr fun _ _ h => Int.ofNat.inj (Number.int.inj (Json.num.inj h))

namespace State

/-- A node outside of every scope is listed under "-1". -/
theorem decimalInt_scopeOf_of_none {node : Node} (h : node.fields.scopeIndex? = none) :
    Text.decimalInt (scopeOf node) = "-1" := by
  rw [Fields.scopeIndex?] at h
  rw [scopeOf, h]
  rfl

theorem scopeOf_of_some {node : Node} {entry : Nat} (h : node.fields.scopeIndex? = some entry) :
    scopeOf node = signedWord entry := by
  rw [Fields.scopeIndex?] at h
  rw [scopeOf, h]

/-- A node inside a scope is listed under the place of the scope's entry. -/
theorem decimalInt_scopeOf_of_lt {node : Node} {entry : Nat}
    (h : node.fields.scopeIndex? = some entry) (hlt : entry < halfWordCount) :
    Text.decimalInt (scopeOf node) = Text.decimal entry := by
  rw [scopeOf_of_some h, signedWord_of_lt hlt]
  rfl

/-- A list of the table holds the places of the nodes that lie in one scope. -/
theorem mem_scopeTable {state : State} {key : String} {list : Json} :
    (key, list) ∈ state.scopeTable.fields ↔ ∃ scope ∈ state.nodes.map scopeOf,
      key = Text.decimalInt scope ∧
        list = .arr (((state.nodes.map scopeOf).idxsOf scope).map Json.nat) := by
  have hentries : state.scopeTable.fields = state.scopes.map fun entry =>
      (Text.decimalInt entry.1, Json.arr (entry.2.map Json.nat)) := rfl
  rw [hentries, List.mem_map]
  constructor
  · rintro ⟨⟨scope, members⟩, hentry, heq⟩
    obtain ⟨rfl, rfl⟩ := Prod.mk.inj heq
    obtain ⟨hscope, rfl⟩ := (state.scopes_groups.entry scope members).mp hentry
    exact ⟨scope, hscope, rfl, rfl⟩
  · rintro ⟨scope, hscope, rfl, rfl⟩
    exact ⟨(scope, _), (state.scopes_groups.entry scope _).mpr ⟨hscope, rfl⟩, rfl⟩

/-- A node is listed under the key of its scope and under no other. -/
theorem lists_iff {state : State} {key : String} {place : Nat} :
    state.scopeTable.fields.Lists key place ↔
      ∃ node, state.nodes[place]? = some node ∧ key = Text.decimalInt (scopeOf node) := by
  have hplaces : ∀ scope, place ∈ (state.nodes.map scopeOf).idxsOf scope ↔
      ∃ node, state.nodes[place]? = some node ∧ scopeOf node = scope := by
    intro scope
    rw [List.mem_idxsOf_iff_exists_getElem_pos]
    simp [List.getElem?_eq_some_iff]
  constructor
  · rintro ⟨places, hlist, hplace⟩
    obtain ⟨scope, _, rfl, hsame⟩ := mem_scopeTable.mp hlist
    obtain rfl := Json.map_nat_injective (Json.arr.inj hsame)
    obtain ⟨node, hnode, rfl⟩ := (hplaces scope).mp hplace
    exact ⟨node, hnode, rfl⟩
  · rintro ⟨node, hnode, rfl⟩
    have hscope := List.mem_map_of_mem (f := scopeOf) (List.mem_of_getElem? hnode)
    exact ⟨_, mem_scopeTable.mpr ⟨_, hscope, rfl, rfl⟩, (hplaces _).mpr ⟨node, hnode, rfl⟩⟩

theorem scopeTable_keys (state : State) : (state.scopeTable.fields.map Prod.fst).Nodup := by
  have hkeys : state.scopeTable.fields.map Prod.fst =
      (state.scopes.map Prod.fst).map Text.decimalInt := by
    rw [scopeTable, Json.fields, Json.asObject?, Option.getD_some, List.map_map, List.map_map]
    rfl
  rw [hkeys]
  refine List.Nodup.map Text.decimalInt_injective (List.pairwise_map.mpr ?_)
  exact state.scopes_groups.ordered.imp Int.ne_of_lt

/-- A written node shows which key it is listed under. -/
theorem lists_written {document : Nat → Json} {place index : Nat} {state : State} {written : Json}
    {key : String} (hwritten : (state.encode document place).listed[index]? = some written)
    (hkey : ∀ node : Node, node.fields.scopeIndex? = written.fields.scopeIndex? →
      Text.decimalInt (scopeOf node) = key) : state.scopeTable.fields.Lists key index := by
  obtain ⟨node, hnode, rfl⟩ := exists_of_listed hwritten
  exact lists_iff.mpr ⟨node, hnode, (hkey node (node.scopeIndex?_encode document index).symm).symm⟩

/-- The scope table partitions the places of the written nodes by the scope each lies in. -/
theorem scopeTable_partitions (document : Nat → Json) (place : Nat) (state : State) :
    state.scopeTable.fields.Partitions (state.encode document place).listed where
  keys := state.scopeTable_keys
  ascending key list hlist := by
    obtain ⟨scope, hscope, rfl, rfl⟩ := mem_scopeTable.mp hlist
    refine ⟨_, rfl, ?_, List.pairwise_idxsOf⟩
    rw [ne_eq, List.idxsOf_eq_nil_iff]
    intro hnone
    simpa using hnone scope hscope
  inside key index hlists := by
    obtain ⟨node, hnode, _⟩ := lists_iff.mp hlists
    rw [listed_encode, List.length_mapIdx]
    exact (List.getElem?_eq_some_iff.mp hnode).1
  once index hindex := by
    rw [listed_encode, List.length_mapIdx] at hindex
    have hnode := List.getElem?_eq_getElem hindex
    refine ⟨_, lists_iff.mpr ⟨_, hnode, rfl⟩, fun key hkey => ?_⟩
    obtain ⟨node, hother, rfl⟩ := lists_iff.mp hkey
    obtain rfl := Option.some.inj (hother.symm.trans hnode)
    rfl
  top index written hwritten hentry :=
    lists_written hwritten fun _ hsame => decimalInt_scopeOf_of_none (hsame.trans hentry)
  below index written entry hwritten hentry hlt :=
    lists_written hwritten fun _ hsame => decimalInt_scopeOf_of_lt (hsame.trans hentry) hlt
  beyond index written entry hwritten hentry hge :=
    lists_written hwritten fun node hsame => by
      obtain ⟨value, _, hindex⟩ := Option.bind_eq_some_iff.mp hentry
      rw [scopeOf_of_some (hsame.trans hentry), signedWord_of_le hge (Json.asIndex?_lt hindex)]

end State

/-! ## A state without one of its nodes -/

/-- Removing a node renames the scope of every other node, and frees those that lay in the removed
one. -/
theorem Fields.Lowered.scopeIndex?_eq {removed : Nat} {before after : Fields}
    (h : Fields.Lowered ["scope_entry", "scope_exit"] removed (some .null) before after) :
    after.scopeIndex? = before.scopeIndex?.bind (shiftPlace removed) := by
  rw [scopeIndex?, scopeIndex?]
  cases hvalue : before.value? "scope_entry" with
  | none =>
      rw [h.unset _ List.mem_cons_self hvalue]
      rfl
  | some value => exact (h.set _ List.mem_cons_self value hvalue).bind_asIndex? rfl

namespace State

/-- A node that stays is found at its lowered place, in its renamed scope. -/
theorem LosesNode.exists_node {before after : State} {removed place : Nat} {node : Node}
    (h : before.LosesNode removed after) (hne : place ≠ removed)
    (hnode : before.nodes[place]? = some node) :
    ∃ moved, after.nodes[placeWithout removed place]? = some moved ∧
      moved.fields.scopeIndex? = node.fields.scopeIndex?.bind (shiftPlace removed) := by
  rw [← getElem?_eraseIdx_placeWithout _ hne] at hnode
  obtain ⟨hplace, rfl⟩ := List.getElem?_eq_some_iff.mp hnode
  have hafter := h.nodes.length_eq ▸ hplace
  exact ⟨_, List.getElem?_eq_getElem hafter, (h.nodes.get hplace hafter).2.scopeIndex?_eq⟩

/-- A node that was written before shows which key it is listed under now. -/
theorem LosesNode.lists_written {before after : State} {removed place index : Nat}
    {document : Nat → Json} {written : Json} {key : String} (h : before.LosesNode removed after)
    (hne : index ≠ removed)
    (hwritten : (before.encode document place).listed[index]? = some written)
    (hkey : ∀ node : Node,
      node.fields.scopeIndex? = written.fields.scopeIndex?.bind (shiftPlace removed) →
        Text.decimalInt (scopeOf node) = key) :
    after.scopeTable.fields.Lists key (placeWithout removed index) := by
  obtain ⟨node, hnode, rfl⟩ := exists_of_listed hwritten
  obtain ⟨moved, hmoved, hentry⟩ := h.exists_node hne hnode
  rw [Node.scopeIndex?_encode] at hkey
  exact lists_iff.mpr ⟨moved, hmoved, (hkey moved hentry).symm⟩

/-- The table after a removal is the table before it, less the node and with keys and places
lowered. -/
theorem LosesNode.listedWithout {before after : State} {removed : Nat}
    (h : before.LosesNode removed after) (document : Nat → Json) (place : Nat) :
    (before.encode document place).ListedWithout removed after.scopeTable.fields where
  freed index written hne hwritten hentry :=
    h.lists_written hne hwritten fun node hnode => by
      rw [hentry, Option.bind_some, shiftPlace_self] at hnode
      exact decimalInt_scopeOf_of_none hnode
  top index written hne hwritten hentry :=
    h.lists_written hne hwritten fun node hnode => by
      rw [hentry, Option.bind_none] at hnode
      exact decimalInt_scopeOf_of_none hnode
  below index written entry hne hwritten hentry hother hlt :=
    h.lists_written hne hwritten fun node hnode => by
      rw [hentry, Option.bind_some, shiftPlace_of_ne hother] at hnode
      refine decimalInt_scopeOf_of_lt hnode ?_
      rw [placeWithout]
      split <;> omega

/-- Renaming the nested graphs of a state leaves its scope table alone. -/
theorem scopeTable_renamed (rename : Nat → Option Nat) (state : State) :
    State.scopeTable { state with nodes := state.nodes.map fun node =>
      { node with nested := node.nested.bind rename } } = state.scopeTable := by
  have hscopes : State.scopes { state with nodes := state.nodes.map fun node =>
      { node with nested := node.nested.bind rename } } = state.scopes := by
    refine scopesFrom_congr ?_ [] 0
    rw [List.map_map]
    rfl
  rw [scopeTable, scopeTable, hscopes]

end State

theorem Element.placeBeside_of_ne (element : Element) {id : Nat} (h : id ≠ element.graphIndex)
    (place : Nat) : element.placeBeside id place = place := by
  cases element with
  | state other removed => exact if_neg (Ne.symm h)
  | _ => rfl

namespace Subgraph

variable {graph kept : Subgraph} {state : State} {place : Nat}

/-- The state that loses a node is found where it was, less that node. -/
theorem Loses.exists_shrunk {id index : Nat} (h : graph.Loses (.node id place index) kept)
    (hstate : graph.states[place]? = some state) :
    ∃ after, kept.states[place]? = some after ∧ state.LosesNode index after := by
  cases h with
  | node hfound hloses =>
      obtain rfl := Option.some.inj (hstate.symm.trans hfound)
      exact ⟨_, List.getElem?_set_self (List.getElem?_eq_some_iff.mp hstate).1, hloses⟩

/-- A state that loses no node is found at its new place with its own table. -/
theorem Loses.exists_kept {element : Element} (h : graph.Loses element kept)
    (hstate : graph.states[place]? = some state)
    (hstays : element ≠ .state element.graphIndex place)
    (hnode : ∀ index, element ≠ .node element.graphIndex place index) :
    ∃ after, kept.states[element.placeBeside element.graphIndex place]? = some after ∧
      after.scopeTable = state.scopeTable ∧ after.fields = state.fields := by
  cases h with
  | @state id removed after hloses =>
      have hne : place ≠ removed := fun heq => hstays (heq ▸ rfl)
      refine ⟨state, ?_, rfl, rfl⟩
      have hplace : (Element.state id removed).placeBeside id place = placeWithout removed place :=
        if_pos rfl
      rw [Element.graphIndex, hplace, hloses.states, getElem?_eraseIdx_placeWithout _ hne]
      exact hstate
  | @node id other index found after hfound hloses =>
      have hne : other ≠ place := fun heq => hnode index (heq ▸ rfl)
      exact ⟨state, (List.getElem?_set_ne hne).trans hstate, rfl, rfl⟩
  | @within id other index found hfound =>
      by_cases hother : other = place
      · subst hother
        obtain rfl := Option.some.inj (hstate.symm.trans hfound)
        exact ⟨_, List.getElem?_set_self (List.getElem?_eq_some_iff.mp hstate).1, rfl, rfl⟩
      · exact ⟨state, (List.getElem?_set_ne hother).trans hstate, rfl, rfl⟩
  | between => exact ⟨state, hstate, rfl, rfl⟩

/-- Only the graph of the element can differ, and there only a list of states or of edges. -/
theorem exists_beside {element : Element} {id : Nat}
    (h : if id = element.graphIndex then graph.Loses element kept else kept = graph)
    (hstate : graph.states[place]? = some state) (hstays : element ≠ .state id place)
    (hnode : ∀ index, element ≠ .node id place index) :
    ∃ after, kept.states[element.placeBeside id place]? = some after ∧
      after.scopeTable = state.scopeTable ∧ after.fields = state.fields := by
  split at h
  next hid =>
    subst hid
    exact h.exists_kept hstate hstays hnode
  next hid =>
    subst h
    exact ⟨state, by rwa [element.placeBeside_of_ne hid], rfl, rfl⟩

end Subgraph

/-! ## Finding what is written -/

namespace Arena

variable {arena result : Arena} {element : Element}

/-- A graph is written inside the node that owns it. -/
theorem WellFormed.exists_listed (h : arena.WellFormed) {location : Location} {id : Nat}
    (howns : arena.Owns location id) :
    ∃ state node, (arena.document location.graph).listed[location.state]? = some state ∧
      state.listed[location.node]? = some node ∧
        node.fields.attributes.value? "sdfg" = some (arena.document id) := by
  obtain ⟨node, hnode, hnested⟩ := howns
  obtain ⟨graph, state, hgraph, hstate, hindex⟩ := node_eq_ok.mp hnode
  refine ⟨state.encode arena.document location.state, node.encode arena.document location.node,
    ?_, ?_, Node.embedded_encode hnested arena.document location.node⟩
  · rw [h.document_eq hgraph, Subgraph.listed_encode, List.getElem?_mapIdx, hstate,
      Option.map_some]
  · rw [State.listed_encode, List.getElem?_mapIdx, hindex, Option.map_some]

/-- The graph documents inside the written arena are the documents of its graphs. -/
theorem WellFormed.writesGraph_iff (h : arena.WellFormed) {id : Nat} {document : Json} :
    arena.WritesGraph id document ↔
      id < arena.graphs.length ∧ document = arena.document id := by
  constructor
  · intro hwrites
    induction hwrites with
    | root => exact ⟨h.pos, toJson_eq_document⟩
    | nested _ howns hstate hnode hinner ih =>
        obtain ⟨_, rfl⟩ := ih
        obtain ⟨_, _, hfirst, hsecond, hthird⟩ := h.exists_listed howns
        obtain rfl := Option.some.inj (hstate.symm.trans hfirst)
        obtain rfl := Option.some.inj (hnode.symm.trans hsecond)
        exact ⟨(h.lt_of_owns howns).2, Option.some.inj (hinner.symm.trans hthird)⟩
  · rintro ⟨hid, rfl⟩
    induction id using Nat.strongRecOn with
    | ind id ih =>
        rcases Nat.eq_zero_or_pos id with rfl | hpos
        · exact .root
        · obtain ⟨location, hrecord, _⟩ := h.owned id hpos hid
          have howns := h.recordedOwner_eq_some_iff.mp hrecord
          obtain ⟨hlt, _⟩ := h.lt_of_owns howns
          obtain ⟨_, _, hstate, hnode, hinner⟩ := h.exists_listed howns
          exact .nested (ih _ hlt (hlt.trans hid)) howns hstate hnode hinner

/-- The state documents inside the written arena are the documents of its states. -/
theorem WellFormed.writesState_iff (h : arena.WellFormed) {id place : Nat} {document : Json} :
    arena.WritesState id place document ↔
      ∃ state, arena.state id place = .ok state ∧
        document = state.encode arena.document place := by
  have hlisted : ∀ graph, arena.graphs[id]? = some graph →
      (arena.document id).listed[place]? =
        graph.states[place]?.map (·.encode arena.document place) := by
    intro graph hgraph
    rw [h.document_eq hgraph, Subgraph.listed_encode, List.getElem?_mapIdx]
  constructor
  · rintro ⟨graphDocument, hwrites, hdocument⟩
    obtain ⟨hid, rfl⟩ := h.writesGraph_iff.mp hwrites
    have hgraph := List.getElem?_eq_getElem hid
    rw [hlisted _ hgraph] at hdocument
    obtain ⟨state, hstate, rfl⟩ := Option.map_eq_some_iff.mp hdocument
    exact ⟨state, state_eq_ok.mpr ⟨_, hgraph, hstate⟩, rfl⟩
  · rintro ⟨state, hstate, rfl⟩
    obtain ⟨graph, hgraph, hplace⟩ := state_eq_ok.mp hstate
    refine ⟨arena.document id,
      h.writesGraph_iff.mpr ⟨(List.getElem?_eq_some_iff.mp hgraph).1, rfl⟩, ?_⟩
    rw [hlisted graph hgraph, hplace, Option.map_some]

/-! ## Tables after an erasure -/

/-- The documents of a state and of what it has become, found in the documents of both arenas. -/
theorem WellFormed.exists_after (hresult : result.WellFormed) {id next : Nat} {kept : Subgraph}
    {after : State} {rename : Nat → Option Nat} {owner : Option Location}
    (hgraph : result.graphs[id]? = some { renameNested rename kept with owner := owner })
    (hstate : kept.states[next]? = some after) :
    ∃ document, result.WritesState id next document ∧
      document.fields.has "scope_dict" = after.fields.has "scope_dict" ∧
        document.fields.values "scope_dict" =
          if after.fields.has "scope_dict" then [after.scopeTable] else [] := by
  have hrenamed : result.state id next = .ok { after with nodes := after.nodes.map fun node =>
      { node with nested := node.nested.bind rename } } := by
    refine state_eq_ok.mpr ⟨_, hgraph, ?_⟩
    rw [renameNested, List.getElem?_map, hstate, Option.map_some]
  refine ⟨_, hresult.writesState_iff.mpr ⟨_, hrenamed, rfl⟩, ?_, ?_⟩
  · rw [State.has_scopes_encode]
  · rw [State.values_scopes_encode, State.scopeTable_renamed]

/-- After a removal the scope tables of the states that stay follow the renumbering of nodes and
graphs. -/
theorem Erased.tablesFollow (hformed : arena.WellFormed) (h : arena.Erased element result) :
    ∃ dropped, (∀ id, dropped id = true ↔ arena.LiesBelow element id) ∧
      arena.TablesFollow element dropped result := by
  obtain ⟨hresult, dropped, hdropped, _, hgraphs⟩ := h
  refine ⟨dropped, hdropped, ?_, ?_⟩
  · rintro id place index before rfl hbefore
    obtain ⟨state, hstate, rfl⟩ := hformed.writesState_iff.mp hbefore
    obtain ⟨graph, hgraph, hplace⟩ := state_eq_ok.mp hstate
    -- What goes with a node lies in later graphs, so that the graph of the node keeps its number.
    have hstays : ∀ other ≤ id, dropped other = false := fun other hle =>
      Bool.eq_false_iff.mpr fun hgone =>
        Nat.not_lt_of_le hle (hformed.lt_of_liesBelow ((hdropped other).mp hgone))
    obtain ⟨kept, owner, hloses, _, hkept⟩ := hgraphs id graph hgraph (hstays id (Nat.le_refl id))
    rw [Element.graphIndex, if_pos rfl] at hloses
    rw [goneBelow_eq_zero fun other hlt => hstays other hlt.le, Nat.sub_zero] at hkept
    obtain ⟨after, hafter, hlost⟩ := hloses.exists_shrunk hplace
    obtain ⟨document, hdocument, hhas, hvalues⟩ := hresult.exists_after hkept hafter
    refine ⟨document, hdocument, ?_, fun table htable => ?_⟩
    · rw [hhas, State.has_scopes_encode, hlost.fields]
    · rw [Fields.value?_eq_head?, hvalues] at htable
      split at htable
      · have htable : table = after.scopeTable.fields :=
          Json.obj.inj (Option.some.inj htable).symm
        exact htable ▸ hlost.listedWithout arena.document place
      · cases htable
  · intro id place before hbefore hstays hstate hnode
    obtain ⟨state, hfound, rfl⟩ := hformed.writesState_iff.mp hbefore
    obtain ⟨graph, hgraph, hplace⟩ := state_eq_ok.mp hfound
    obtain ⟨kept, owner, hloses, _, hkept⟩ := hgraphs id graph hgraph hstays
    obtain ⟨after, hafter, htable, hfields⟩ := Subgraph.exists_beside hloses hplace hstate hnode
    obtain ⟨document, hdocument, _, hvalues⟩ := hresult.exists_after hkept hafter
    refine ⟨document, hdocument, ?_⟩
    rw [hvalues, htable, hfields, State.values_scopes_encode]

/-- A well-formed arena is written with scope tables that partition the nodes of each state, and
they stay so and follow the renumbering through every removal. -/
theorem WellFormed.tabulatesScopes (h : arena.WellFormed) : arena.TabulatesScopes where
  table id place state hstate hhas := by
    refine ⟨_, state.scopeTable.fields, h.writesState_iff.mpr ⟨state, hstate, rfl⟩, ?_, ?_,
      state.scopeTable_partitions arena.document place⟩
    · rw [State.listed_encode, List.length_mapIdx]
    · rw [State.values_scopes_encode, if_pos hhas]
      rfl
  unique id place first second hfirst hsecond := by
    obtain ⟨state, hstate, rfl⟩ := h.writesState_iff.mp hfirst
    obtain ⟨other, hother, rfl⟩ := h.writesState_iff.mp hsecond
    rw [Except.ok.inj (hstate.symm.trans hother)]
  erased element hlive hgraph := by
    obtain ⟨result, herase, herased⟩ := h.erased hlive hgraph
    obtain ⟨dropped, hdropped, hfollow⟩ := herased.tablesFollow h
    exact ⟨result, dropped, herase, hdropped, hfollow⟩
  graph id hpos hid := h.erase_owned hpos hid

/-- In the document of every arena that edits of a decoded one lead to, the tables of scopes agree
with the nodes. Without one element, they follow the nodes that are left. -/
theorem reachable_tabulatesScopes {document : Json} (hdocument : ofJson document = .ok arena)
    (edits : List Edit) : (arena.afterEdits edits).TabulatesScopes :=
  ((ofJson_wellFormed hdocument).afterEdits edits).tabulatesScopes

/-- A node is put into the scope of the second one, and the first goes with the graph it owns. -/
def scopedEdits : List Edit :=
  [.pushNode 0 0 ⟨none, [("scope_entry", .nat 1)]⟩, .erase (.node 0 0 0)]

theorem scopedEdits_tabulatesScopes : ofJson tidyDocument = .ok tidyArena ∧
    (tidyArena.afterEdits scopedEdits).TabulatesScopes := by
  have hdocument : ofJson tidyDocument = .ok tidyArena := by decide
  exact ⟨hdocument, reachable_tabulatesScopes hdocument scopedEdits⟩

example : ((tidyArena.afterEdits scopedEdits).state 0 0).map State.scopeTable =
    .ok (.obj [("-1", .arr [.nat 0]), ("0", .arr [.nat 1])]) := by decide

end Arena

end DataflowEditor
