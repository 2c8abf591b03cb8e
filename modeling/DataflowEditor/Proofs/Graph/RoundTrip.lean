import DataflowEditor.Proofs.Graph.Rereading

/-! # Round trip through a document

An editor gets every arena as a document and sends it back as one. The arena read from the document
of another has the same elements in the same places, so that every address is located alike, and it
is written as the same document again, up to the order of members. Every graph inside the document
carries the index that it has in the arena.
-/

namespace DataflowEditor

/-! ## Elements without their fields -/

def Edge.outline (edge : Edge) : Edge :=
  { edge with fields := [] }

def Node.outline (node : Node) : Node :=
  { node with fields := [] }

def State.outline (state : State) : State :=
  ⟨state.nodes.map Node.outline, state.edges.map Edge.outline, []⟩

def Subgraph.outline (graph : Subgraph) : Subgraph :=
  ⟨graph.states.map State.outline, graph.edges.map Edge.outline, graph.owner, []⟩

/-- The graphs of an arena with their owners, states, nodes and edges, without any fields. -/
def Arena.outline (arena : Arena) : Arena :=
  ⟨arena.graphs.map Subgraph.outline⟩

/-- Items that look alike after a change by place look alike all together. -/
theorem map_mapIdx_eq {α β γ : Type} {items : List α} {change : Nat → α → β} {view : β → γ}
    {same : α → γ} (h : ∀ index item, view (change index item) = same item) :
    (items.mapIdx change).map view = items.map same := by
  apply List.ext_getElem?
  intro index
  rw [List.getElem?_map, List.getElem?_mapIdx, List.getElem?_map, Option.map_map]
  cases items[index]? with
  | none => rfl
  | some item => exact congrArg some (h index item)

/-- A node that is written and read again has the outline that it had. -/
theorem Node.outline_reread (place : Nat) (node : Node) :
    (node.reread place).outline = node.outline := by
  rw [reread, outline, outline]
  cases node.nested <;> rfl

theorem State.outline_reread (place : Nat) (state : State) :
    (state.reread place).outline = state.outline := by
  rw [reread, outline, outline, map_mapIdx_eq Node.outline_reread, List.map_map]
  rfl

theorem Subgraph.outline_reread (id : Nat) (graph : Subgraph) :
    (graph.reread id).outline = graph.outline := by
  rw [reread, outline, outline, map_mapIdx_eq State.outline_reread, List.map_map]
  rfl

theorem State.edgesInside_outline {state : State} :
    state.outline.EdgesInside ↔ state.EdgesInside := by
  simp [EdgesInside, outline, Edge.outline]

/-- Whether edges end inside can be told from the outline. -/
theorem Subgraph.edgesInside_outline {graph : Subgraph} :
    graph.outline.EdgesInside ↔ graph.EdgesInside := by
  constructor
  · rintro ⟨hbetween, hwithin⟩
    refine ⟨by simpa [outline, Edge.outline] using hbetween, fun state hstate => ?_⟩
    exact State.edgesInside_outline.mp (hwithin _ (List.mem_map_of_mem hstate))
  · rintro ⟨hbetween, hwithin⟩
    refine ⟨by simpa [outline, Edge.outline] using hbetween, fun state hstate => ?_⟩
    obtain ⟨original, horiginal, rfl⟩ := List.mem_map.mp hstate
    exact State.edgesInside_outline.mpr (hwithin original horiginal)

namespace Arena

variable {arena : Arena}

/-- An arena that is written and read again has the outline that it had. -/
theorem outline_reread : arena.reread.outline = arena.outline := by
  rw [outline, reread, map_mapIdx_eq Subgraph.outline_reread, outline]

/-! ## What an outline shows -/

theorem ownersIn_outline (id : Nat) (graph : Subgraph) :
    ownersIn id graph.outline = ownersIn id graph := by
  simp only [ownersIn, Subgraph.outline, State.outline, List.zipIdx_map, List.flatMap_map,
    List.filterMap_map, Function.comp_def, Prod.map, Node.outline, id_eq]

theorem outline_getElem? (id : Nat) :
    arena.outline.graphs[id]? = arena.graphs[id]?.map Subgraph.outline := by
  rw [outline, List.getElem?_map]

/-- The owners and edges of an arena stand in its outline. -/
theorem WellFormed.of_outline (h : arena.WellFormed) {other : Arena}
    (houtline : other.outline = arena.outline) : other.WellFormed := by
  have hlength : other.graphs.length = arena.graphs.length := by
    have hlengths := congrArg (fun arena => arena.graphs.length) houtline
    simpa [outline] using hlengths
  refine h.of_alike hlength fun id graph hgraph => ?_
  have hfound : arena.graphs[id]?.map Subgraph.outline = some graph.outline := by
    rw [← outline_getElem?, ← houtline, outline_getElem?, hgraph, Option.map_some]
  obtain ⟨original, horiginal, hsame⟩ := Option.map_eq_some_iff.mp hfound
  refine ⟨original, horiginal, ?_, (congrArg Subgraph.owner hsame).symm, ?_⟩
  · rw [← ownersIn_outline, ← hsame, ownersIn_outline]
  · rw [← Subgraph.edgesInside_outline, ← hsame, Subgraph.edgesInside_outline]
    exact h.edges original (List.mem_of_getElem? horiginal)

theorem elements_outline : arena.outline.elements = arena.elements := by
  simp [elements, outline, Subgraph.outline, State.outline, List.zipIdx_map, List.flatMap_map]

theorem searchOwner_outline (target fuel id : Nat) :
    arena.outline.searchOwner target fuel id = arena.searchOwner target fuel id := by
  induction fuel generalizing id with
  | zero => rfl
  | succ fuel ih =>
      rw [searchOwner, searchOwner, outline_getElem?]
      cases arena.graphs[id]? with
      | none => rfl
      | some graph => simp only [Option.map_some, ownersIn_outline, ih]

theorem ownerOf_outline (id : Nat) : arena.outline.ownerOf id = arena.ownerOf id := by
  rw [ownerOf, ownerOf, searchOwner_outline, outline, List.length_map]

theorem locateState_outline (address : Address) (id : Nat) (graph : Subgraph) :
    locateState address id graph.outline =
      (locateState address id graph).map
        (Option.map (Prod.map (fun place => place) State.outline)) := by
  rw [locateState, locateState, Subgraph.outline, List.getElem?_map]
  split
  · rfl
  · cases graph.states[unsignedWord address.state]? <;> rfl

theorem locateInside_outline (address : Address) (id : Nat) (graph : Subgraph)
    (owner : Option Location) :
    locateInside address id graph.outline owner = locateInside address id graph owner := by
  rw [locateInside, locateInside, locateState_outline]
  cases locateState address id graph with
  | error => rfl
  | ok inState =>
      cases inState with
      | none => simp [Except.map, Subgraph.outline]
      | some found => simp [Except.map, State.outline]

/-- Every address leads to the same place in the outline. -/
theorem locate_outline (address : Address) :
    arena.outline.locate address = arena.locate address := by
  rw [locate, locate, ownerOf_outline, graph, graph, outline_getElem?]
  cases arena.graphs[unsignedWord address.graph]? with
  | none => rfl
  | some graph => simp only [Option.map_some, ok_bind, locateInside_outline]

/-- Every text of an address leads to the same place in the outline. -/
theorem locateText_outline (text : String) :
    arena.outline.locateText text = arena.locateText text := by
  simp only [locateText, locate_outline]

end Arena

/-! ## One document, up to the order of members -/

/-! ### Edges and nodes -/

theorem Edge.encode_reread (edge : Edge) : Json.Same edge.reread.encode edge.encode :=
  .obj (Fields.same_renewed .rfl .rfl)

theorem Edge.encodeAll_reread (edges : List Edge) :
    Json.Same (encodeAll (edges.map reread)) (encodeAll edges) := by
  refine .arr ?_
  rw [List.map_map, List.map_map, List.map_map]
  exact List.map_congr_left fun edge _ => encode_reread edge

/-- A node is written again as it was written first, if its graph is. -/
theorem Node.encode_reread {first second : Nat → Json}
    (h : ∀ id, Json.Same (first id) (second id)) (place : Nat) (node : Node) :
    Json.Same ((node.reread place).encode first place) (node.encode second place) := by
  cases howned : node.nested with
  | none =>
      rw [reread, howned, encode_of_none howned]
      simp only [encode, Fields.put_put_self]
      exact .rfl
  | some id =>
      rw [reread, howned, encode_of_some howned]
      have hid : (withoutEmbedded (node.fields.put "id" (.nat place))).values "id" =
          [.nat place] := by
        rw [withoutEmbedded, Fields.modifyAttributes, Fields.values_put, Fields.values_put]
        rfl
      simp only [encode, written, Fields.put_eq_self hid]
      rw [withoutEmbedded, Fields.modifyAttributes_modifyAttributes]
      exact .obj (Fields.modifyAttributes_same (h id))

/-- Reading a node again changes its number and its attributes at most. -/
theorem Node.value?_reread {key : String} (hid : key ≠ "id") (hattributes : key ≠ "attributes")
    (place : Nat) (node : Node) :
    (node.reread place).fields.value? key = node.fields.value? key := by
  rw [reread]
  cases node.nested with
  | none => exact Fields.value?_put_of_ne _ _ _ _ hid
  | some id =>
      rw [withoutEmbedded, Fields.value?_modifyAttributes_of_ne _ hattributes]
      exact Fields.value?_put_of_ne _ _ _ _ hid

/-! ### States -/

namespace State

theorem scopeOf_reread (place : Nat) (node : Node) :
    scopeOf (node.reread place) = scopeOf node := by
  rw [scopeOf, scopeOf, Node.value?_reread (by decide) (by decide)]

/-- The scopes of nodes depend on nothing but where each node says that it lies. -/
theorem scopesFrom_congr {first second : List Node}
    (h : first.map scopeOf = second.map scopeOf) (scopes : List (Int × List Nat)) (place : Nat) :
    scopesFrom scopes place first = scopesFrom scopes place second := by
  induction first generalizing second scopes place with
  | nil =>
      obtain rfl := List.map_eq_nil_iff.mp h.symm
      rfl
  | cons node rest ih =>
      cases second with
      | nil => cases h
      | cons other behind =>
          obtain ⟨hscope, hrest⟩ := List.cons.inj h
          rw [scopesFrom, scopesFrom, hscope, ih hrest]

/-- The table of scopes is the one that was written. -/
theorem scopeTable_reread (place : Nat) (state : State) :
    (state.reread place).scopeTable = state.scopeTable := by
  have hscopes : (state.reread place).scopes = state.scopes :=
    scopesFrom_congr (map_mapIdx_eq scopeOf_reread) [] 0
  rw [scopeTable, scopeTable, hscopes]

theorem values_numbered_id (place : Nat) (state : State) :
    (state.numbered place).values "id" = [.nat place] := by
  simp only [numbered]
  split <;> simp [Fields.values_put]

/-- The table of scopes is kept up to date where there is one. -/
theorem values_numbered_scopes (place : Nat) (state : State) :
    (state.numbered place).values "scope_dict" =
      if state.fields.has "scope_dict" then [state.scopeTable] else [] := by
  simp only [numbered, Fields.has_put_of_ne (show "scope_dict" ≠ "id" by decide)]
  split
  · simp [Fields.values_put]
  next hnone => simpa [Fields.values_put] using Fields.values_eq_nil (by simpa using hnone)

theorem values_numbered_of_ne {key : String} (hid : key ≠ "id") (hscopes : key ≠ "scope_dict")
    (place : Nat) (state : State) :
    (state.numbered place).values key = state.fields.values key := by
  simp only [numbered]
  split <;> simp [Fields.values_put, hid, hscopes]

/-- A state that was read is numbered already. -/
theorem numbered_reread (place : Nat) (state : State) :
    (state.reread place).numbered place = (state.reread place).fields := by
  have hid : (state.reread place).fields.values "id" = [.nat place] := by
    simp [reread, Fields.values_without, values_numbered_id]
  have hscopes : (state.reread place).fields.values "scope_dict" =
      if state.fields.has "scope_dict" then [state.scopeTable] else [] := by
    simp [reread, Fields.values_without, values_numbered_scopes]
  simp only [numbered, Fields.put_eq_self hid, scopeTable_reread]
  split
  next hhas =>
    apply Fields.put_eq_self
    rw [hscopes, if_pos]
    by_contra hnone
    rw [if_neg hnone] at hscopes
    simp [Fields.has_eq_of_values, hscopes] at hhas
  next => rfl

/-- A state is written again as it was written first, if the graphs in it are. -/
theorem encode_reread {first second : Nat → Json} (h : ∀ id, Json.Same (first id) (second id))
    (place : Nat) (state : State) :
    Json.Same ((state.reread place).encode first place) (state.encode second place) := by
  rw [encode, encode, numbered_reread]
  refine .obj (Fields.same_renewed (Json.same_mapIdx ?_) (Edge.encodeAll_reread state.edges))
  exact fun index node => node.encode_reread h index

end State

/-! ### Graphs -/

namespace Subgraph

/-- Where a graph has one of the two members that number it, the other is not added. -/
theorem values_numbered_list (id : Nat) (fields : Fields) :
    (numbered id fields).values "sdfg_list_id" =
      if fields.has "cfg_list_id" && !fields.has "sdfg_list_id" then [] else [.nat id] := by
  simp only [numbered]
  cases hlist : fields.has "sdfg_list_id" <;> cases hconfig : fields.has "cfg_list_id" <;>
    simp [Fields.values_put, Fields.has_put_of_ne, Fields.values_eq_nil, hlist, hconfig]

/-- The number in the list of graphs is kept up to date where there is one. -/
theorem values_numbered_config (id : Nat) (fields : Fields) :
    (numbered id fields).values "cfg_list_id" =
      if fields.has "cfg_list_id" then [.nat id] else [] := by
  simp only [numbered]
  cases hlist : fields.has "sdfg_list_id" <;> cases hconfig : fields.has "cfg_list_id" <;>
    simp [Fields.values_put, Fields.has_put_of_ne, Fields.values_eq_nil, hconfig]

/-- A graph that was read is numbered already. -/
theorem numbered_reread (id : Nat) (graph : Subgraph) :
    numbered id (graph.reread id).fields = (graph.reread id).fields := by
  have hlist : (graph.reread id).fields.values "sdfg_list_id" =
      if graph.fields.has "cfg_list_id" && !graph.fields.has "sdfg_list_id" then []
      else [.nat id] := by
    simp [reread, Fields.values_without, values_numbered_list]
  have hconfig : (graph.reread id).fields.values "cfg_list_id" =
      if graph.fields.has "cfg_list_id" then [.nat id] else [] := by
    simp [reread, Fields.values_without, values_numbered_config]
  simp only [numbered, Fields.has_eq_of_values (graph.reread id).fields]
  cases hasConfig : graph.fields.has "cfg_list_id" with
  | false =>
      simp only [hasConfig, Bool.false_and, Bool.false_eq_true, if_false] at hlist hconfig
      simp [hlist, hconfig, Fields.put_eq_self hlist, Fields.has_eq_of_values]
  | true =>
      simp only [hasConfig, Bool.true_and, if_true] at hlist hconfig
      cases hasList : graph.fields.has "sdfg_list_id" with
      | false =>
          simp only [hasList, Bool.not_false, if_true] at hlist
          simp [hlist, hconfig, Fields.put_eq_self hconfig, Fields.has_eq_of_values]
      | true =>
          simp only [hasList, Bool.not_true, Bool.false_eq_true, if_false] at hlist
          simp [hlist, hconfig, Fields.put_eq_self hlist, Fields.put_eq_self hconfig,
            Fields.has_eq_of_values]

/-- A graph is written again as it was written first, if the graphs in it are. -/
theorem encode_reread {first second : Nat → Json} (h : ∀ id, Json.Same (first id) (second id))
    (id : Nat) (graph : Subgraph) :
    Json.Same ((graph.reread id).encode first id) (graph.encode second id) := by
  rw [encode, encode, numbered_reread]
  refine .obj (Fields.same_renewed (Json.same_mapIdx ?_) (Edge.encodeAll_reread graph.edges))
  exact fun place state => state.encode_reread h place

end Subgraph

namespace Arena

variable {arena : Arena}

/-- Whatever the depth, a graph is written again as it was written first. -/
theorem encodeWithin_reread (fuel id : Nat) :
    Json.Same (arena.reread.encodeWithin fuel id) (arena.encodeWithin fuel id) := by
  induction fuel generalizing id with
  | zero => exact .rfl
  | succ fuel ih =>
      rw [encodeWithin, encodeWithin, reread_getElem?]
      cases arena.graphs[id]? with
      | none => exact .rfl
      | some graph => exact graph.encode_reread ih id

/-- An arena that is read again is written as the same document. -/
theorem toJson_reread : Json.Same arena.reread.toJson arena.toJson := by
  rw [toJson, reread_length]
  exact encodeWithin_reread _ 0

end Arena

/-! ## Graphs inside a document -/

/-- The document embedded in a node that may be read. -/
def Node.embedded? (fields : Fields) : Option Fields :=
  match embedded fields with
  | .ok inner => inner
  | .error _ => none

/-- The document of the graph nested in a node, the node given by its place and that of its
state. -/
def Fields.nestedAt? (fields : Fields) (state node : Nat) : Option Fields := do
  let states ← (fields.value? "nodes").bind Json.asArray?
  let stateFields ← states[state]?.bind Json.asObject?
  let nodes ← (stateFields.value? "nodes").bind Json.asArray?
  let nodeFields ← nodes[node]?.bind Json.asObject?
  Node.embedded? nodeFields

/-- The document of a node holds a graph exactly if the node owns one. -/
theorem Node.embedded?_encode {node : Node} (htyped : node.Typed) {document : Nat → Json}
    (hobject : ∀ id, node.nested = some id → ∃ inner, document id = .obj inner) (place : Nat)
    (inner : Fields) : (node.encode document place).asObject?.bind embedded? = some inner ↔
      ∃ child, node.nested = some child ∧ document child = .obj inner := by
  cases howned : node.nested with
  | none =>
      have hkind : (node.fields.put "id" (.nat place)).text "type" ≠ "NestedSDFG" := by
        rw [text_put_id]
        simpa [Typed, kind, howned] using htyped
      simp [encode_of_none howned, Json.asObject?, embedded?, embedded_eq_none hkind]
  | some id =>
      have hkind : node.fields.text "type" = "NestedSDFG" := by
        simpa [Typed, kind, howned] using htyped
      obtain ⟨found, hfound⟩ := hobject id howned
      simp [encode_of_some howned, hfound, Json.asObject?, embedded?, embedded_written hkind]

theorem Fields.asArray_nodes (fields : Fields) (nodes : List Json) (edges : Json) :
    (((fields.put "nodes" (.arr nodes)).put "edges" edges).value? "nodes").bind Json.asArray? =
      some nodes := by
  rw [value?_put_of_ne _ _ _ _ (by decide), value?_put_self]
  rfl

/-- The graph gives its index in one member at least, and no other number in any of them. -/
structure Fields.ListedAs (fields : Fields) (id : Nat) : Prop where
  every : ∀ key ∈ ["sdfg_list_id", "cfg_list_id"], ∀ value ∈ fields.values key, value = .nat id
  once : ∃ key ∈ ["sdfg_list_id", "cfg_list_id"], .nat id ∈ fields.values key

theorem Subgraph.listedAs (id : Nat) (fields : Fields) (nodes edges : Json) :
    Fields.ListedAs (((numbered id fields).put "nodes" nodes).put "edges" edges) id := by
  have hlist : Fields.values (((numbered id fields).put "nodes" nodes).put "edges" edges)
      "sdfg_list_id" = (numbered id fields).values "sdfg_list_id" := by
    simp [Fields.values_put]
  have hconfig : Fields.values (((numbered id fields).put "nodes" nodes).put "edges" edges)
      "cfg_list_id" = (numbered id fields).values "cfg_list_id" := by
    simp [Fields.values_put]
  rw [values_numbered_list] at hlist
  rw [values_numbered_config] at hconfig
  refine ⟨?_, ?_⟩
  · intro key hkey value hvalue
    simp only [List.mem_cons, List.not_mem_nil, or_false] at hkey
    rcases hkey with rfl | rfl
    · rw [hlist] at hvalue
      split at hvalue
      · cases hvalue
      · exact List.mem_singleton.mp hvalue
    · rw [hconfig] at hvalue
      split at hvalue
      · exact List.mem_singleton.mp hvalue
      · cases hvalue
  · cases hhas : fields.has "cfg_list_id" with
    | true => exact ⟨"cfg_list_id", by simp, by simp [hconfig, hhas]⟩
    | false => exact ⟨"sdfg_list_id", by simp, by simp [hlist, hhas]⟩

namespace Arena

variable {arena : Arena}

/-- The documents of graphs inside a document, each under the index of the graph whose owner stands
in that place of the arena. -/
inductive Embeds (arena : Arena) (document : Json) : Nat → Fields → Prop
  | root {fields : Fields} : document = .obj fields → Embeds arena document 0 fields
  | nested {location : Location} {id : Nat} {fields inner : Fields} :
      Embeds arena document location.graph fields →
      fields.nestedAt? location.state location.node = some inner → arena.Owns location id →
      Embeds arena document id inner

/-- Every graph of an arena has a document, which has the number of the graph. -/
theorem WellFormed.exists_document (h : arena.WellFormed) {id : Nat}
    (hid : id < arena.graphs.length) :
    ∃ fields, arena.document id = .obj fields ∧ Fields.ListedAs fields id := by
  have hgraph := List.getElem?_eq_getElem hid
  exact ⟨_, h.document_eq hgraph, Subgraph.listedAs _ _ _ _⟩

/-- The documents in the document of a graph are those of the graphs nested in it. -/
theorem WellFormed.nestedAt?_eq_some (h : arena.WellFormed) (htyped : arena.Typed) {id : Nat}
    {fields : Fields} (hfields : arena.document id = .obj fields) {state node : Nat}
    {inner : Fields} : fields.nestedAt? state node = some inner ↔
      ∃ child, arena.Owns ⟨id, state, node⟩ child ∧ arena.document child = .obj inner := by
  cases hgraph : arena.graphs[id]? with
  | none =>
      rw [document, encodeWithin_beyond id (List.getElem?_eq_none_iff.mp hgraph)] at hfields
      cases hfields
  | some graph =>
      rw [h.document_eq hgraph] at hfields
      obtain rfl := Json.obj.inj hfields
      have howns : ∀ child, arena.Owns ⟨id, state, node⟩ child ↔
          ∃ found, graph.states[state]? = some found ∧
            ∃ owner, found.nodes[node]? = some owner ∧ owner.nested = some child := by
        intro child
        simp [Owns, node_eq_ok, hgraph]
        grind
      simp only [Fields.nestedAt?, Option.bind_eq_bind, Fields.asArray_nodes, Option.bind_some,
        List.getElem?_mapIdx, howns]
      cases hstate : graph.states[state]? with
      | none => simp
      | some found =>
          simp only [State.encode, Option.map_some, Option.bind_some, Json.asObject?,
            Fields.asArray_nodes, List.getElem?_mapIdx]
          cases hnode : found.nodes[node]? with
          | none => simp [hnode]
          | some owner =>
              have howner := (htyped graph (List.mem_of_getElem? hgraph)).states found
                (List.mem_of_getElem? hstate) owner (List.mem_of_getElem? hnode)
              -- Every graph is written as an object, so a node that owns one shows it.
              have hobject : ∀ child, owner.nested = some child →
                  ∃ inner, arena.document child = .obj inner := by
                intro child hchild
                have hchild := (howns child).mpr ⟨found, hstate, owner, hnode, hchild⟩
                obtain ⟨inner, hinner, _⟩ := h.exists_document (h.lt_of_owns hchild).2
                exact ⟨inner, hinner⟩
              have hread := Node.embedded?_encode howner hobject node inner
              simpa [hnode] using hread

/-- A document found inside that of a well-formed arena is that of the graph of its index. -/
theorem Embeds.document_eq (h : arena.WellFormed) (htyped : arena.Typed) {id : Nat}
    {fields : Fields} (hembeds : arena.Embeds arena.toJson id fields) :
    arena.document id = .obj fields := by
  induction hembeds with
  | root hroot => exact hroot
  | nested _ hnested howns ih =>
      obtain ⟨child, hchild, hdocument⟩ := (h.nestedAt?_eq_some htyped ih).mp hnested
      obtain ⟨node, hnode, hid⟩ := howns
      obtain ⟨again, hagain, hsame⟩ := hchild
      obtain rfl := Except.ok.inj (hnode.symm.trans hagain)
      obtain rfl := Option.some.inj (hid.symm.trans hsame)
      exact hdocument

/-- Every graph of the arena stands in its place of the document, and no other graph does. Each
gives its index there. -/
structure ListedIn (arena : Arena) (document : Json) : Prop where
  every : ∀ id < arena.graphs.length, ∃ fields, arena.Embeds document id fields
  nested : ∀ id fields, arena.Embeds document id fields → ∀ state node inner,
    fields.nestedAt? state node = some inner → ∃ child, arena.Owns ⟨id, state, node⟩ child
  listed : ∀ id fields, arena.Embeds document id fields → Fields.ListedAs fields id

/-- In the document of an arena every graph stands under its number. -/
theorem WellFormed.listedIn (h : arena.WellFormed) (htyped : arena.Typed) :
    arena.ListedIn arena.toJson := by
  refine ⟨?_, ?_, ?_⟩
  · intro id
    induction id using Nat.strongRecOn with
    | ind id ih =>
        intro hid
        obtain ⟨fields, hfields, _⟩ := h.exists_document hid
        rcases Nat.eq_zero_or_pos id with rfl | hpos
        · exact ⟨fields, .root hfields⟩
        · obtain ⟨owner, howner, _⟩ := h.owned id hpos hid
          have howns := h.recordedOwner_eq_some_iff.mp howner
          obtain ⟨hlt, _⟩ := h.lt_of_owns howns
          -- The document of the graph is found in that of its owner, which has a lower index.
          obtain ⟨outer, houter⟩ := ih owner.graph hlt (by omega)
          have hnested := (h.nestedAt?_eq_some htyped (houter.document_eq h htyped)).mpr
            ⟨id, howns, hfields⟩
          exact ⟨fields, .nested houter hnested howns⟩
  · intro id fields hembeds state node inner hinner
    obtain ⟨child, howns, _⟩ :=
      (h.nestedAt?_eq_some htyped (hembeds.document_eq h htyped)).mp hinner
    exact ⟨child, howns⟩
  · intro id fields hembeds
    have hdocument := hembeds.document_eq h htyped
    have hid : id < arena.graphs.length := by
      by_contra hbeyond
      rw [document, encodeWithin_beyond id (Nat.le_of_not_lt hbeyond)] at hdocument
      cases hdocument
    obtain ⟨found, hfound, hlisted⟩ := h.exists_document hid
    obtain rfl := Json.obj.inj (hdocument.symm.trans hfound)
    exact hlisted

/-! ## The round trip -/

/-- What an arena read from a document has in common with the arena that was written to it. -/
structure SurvivesAs (arena again : Arena) : Prop where
  outline : again.outline = arena.outline
  elements : again.elements = arena.elements
  located : ∀ address, again.locate address = arena.locate address
  locatedText : ∀ text, again.locateText text = arena.locateText text
  document : Json.Same again.toJson arena.toJson

/-- Everything survives that an arena holds when it is written and read again. -/
theorem survivesAs_reread : arena.SurvivesAs arena.reread where
  outline := outline_reread
  elements := by rw [← elements_outline, outline_reread, elements_outline]
  located address := by rw [← locate_outline, outline_reread, locate_outline]
  locatedText text := by rw [← locateText_outline, outline_reread, locateText_outline]
  document := toJson_reread

/-- The document of every arena that edits of fitting types make of a decoded one is read again, as
an arena with the same elements in the same places that is written as the same document, and every
graph in the document carries its index. Counts are words in a program. -/
theorem reachable_survives {document : Json} (hdocument : ofJson document = .ok arena)
    {edits : List Edit} (hkeeps : ∀ edit ∈ edits, edit.KeepsKinds)
    (hcounts : (arena.afterEdits edits).CountsBelow wordCount) :
    (∃ again, ofJson (arena.afterEdits edits).toJson = .ok again ∧
      (arena.afterEdits edits).SurvivesAs again) ∧
      (arena.afterEdits edits).ListedIn (arena.afterEdits edits).toJson := by
  have hformed := reachable_wellFormed hdocument edits
  have htyped := (ofJson_typed hdocument).afterEdits (ofJson_wellFormed hdocument) hkeeps
  exact ⟨⟨_, hformed.ofJson_toJson htyped hcounts, survivesAs_reread⟩, hformed.listedIn htyped⟩

/-- The arena of the example, after its edits, is read back from its document. -/
theorem nestedEdits_survive : ofJson nestedDocument = .ok nestedArena ∧
    (∃ again, ofJson (nestedArena.afterEdits nestedEdits).toJson = .ok again ∧
      (nestedArena.afterEdits nestedEdits).SurvivesAs again) ∧
      (nestedArena.afterEdits nestedEdits).ListedIn (nestedArena.afterEdits nestedEdits).toJson :=
  ⟨ofJson_nestedDocument,
    reachable_survives ofJson_nestedDocument (by decide) (by decide)⟩

end Arena

end DataflowEditor
