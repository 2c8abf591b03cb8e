import DataflowEditor.Proofs.Graph.Erasure
import DataflowEditor.Proofs.Graph.Growth
import DataflowEditor.Proofs.Graph.NormalForm
import DataflowEditor.Proofs.Graph.RoundTrip

/-! # Taking out what was added

New elements come behind the old ones, so taking them out moves nothing, and no reference is renamed
as long as it names something. Where the arena was written and read in between, what is left is the
arena as read, except that its graphs and its tables of scopes are numbered as they were with the
new elements. Writing it numbers them anew.
-/

namespace DataflowEditor

/-! ## Places behind the old ones -/

section Places

variable {α : Type} {gone : Nat → Bool}

theorem keep_eq_nil {items : List α} (h : ∀ place < items.length, gone place = true) :
    keep gone items = [] := by
  refine List.eq_nil_iff_forall_not_mem.mpr fun item hitem => ?_
  obtain ⟨place, hplace, hstays⟩ := mem_keep.mp hitem
  rw [h place (List.getElem?_eq_some_iff.mp hplace).1] at hstays
  cases hstays

theorem keep_append_eq {front back : List α}
    (h : ∀ place < (front ++ back).length, gone place = decide (front.length ≤ place)) :
    keep gone (front ++ back) = front := by
  induction front generalizing gone with
  | nil => exact keep_eq_nil fun place hplace => by simp [h place hplace]
  | cons item front ih =>
      have hbehind : keep (fun place => gone (place + 1)) (front ++ back) = front :=
        ih fun place hplace => by
          rw [h (place + 1) (Nat.succ_lt_succ hplace)]
          simp
      rw [List.cons_append, keep_cons, h 0 (Nat.zero_lt_succ _), hbehind]
      rfl

/-- When everything from a place on is gone, the list is kept up to that place. -/
theorem keep_eq_take {items : List α} {count : Nat} (hcount : count ≤ items.length)
    (h : ∀ place < items.length, gone place = decide (count ≤ place)) :
    keep gone items = items.take count := by
  have hfront : (items.take count).length = count := List.length_take_of_le hcount
  conv_lhs => rw [← List.take_append_drop count items]
  apply keep_append_eq
  rw [List.take_append_drop, hfront]
  exact h

theorem lowerPlace_of_lt {count total place : Nat} (hcount : count ≤ total)
    (h : ∀ place < total, gone place = decide (count ≤ place)) (hplace : place < count) :
    lowerPlace gone place = some place := by
  apply lowerPlace_of_below
  intro below hbelow
  rw [h below (by omega), decide_eq_false (by omega)]

end Places

/-- A name for each of the first places leaves alone what names one of them. -/
theorem Fields.renameIndex_of_namesBelow {fields : Fields} {key : String} {bound : Nat}
    (hfields : fields.NamesBelow key bound) {name : Nat → Option Nat}
    (hname : ∀ place < bound, name place = some place) (dangling : Option Json) :
    fields.renameIndex key name dangling = fields := by
  unfold renameIndex
  split
  next => rfl
  next current hcurrent =>
    split
    next => rfl
    next place hplace =>
      have hbelow := hfields place (by rw [hcurrent, Option.bind_some, hplace])
      simp [hname place hbelow]

theorem Node.namesBelow_reread {node : Node} {key : String} {bound : Nat}
    (hkey : key ∈ ["scope_entry", "scope_exit"]) (hnode : node.fields.NamesBelow key bound)
    (index : Nat) : (node.reread index).fields.NamesBelow key bound := by
  rcases List.mem_pair.mp hkey with rfl | rfl
  · exact hnode.congr (value?_reread (by decide) (by decide) index node)
  · exact hnode.congr (value?_reread (by decide) (by decide) index node)

/-- A scope index below the bound keeps its value when the places below the bound do. -/
theorem Node.renameScope_reread {node : Node} {bound : Nat}
    (hnode : ∀ key ∈ ["scope_entry", "scope_exit"], node.fields.NamesBelow key bound)
    {name : Nat → Option Nat} (hname : ∀ place < bound, name place = some place) (index : Nat) :
    (node.reread index).renameScope name = node.reread index := by
  have hread : ∀ key ∈ ["scope_entry", "scope_exit"],
      (node.reread index).fields.NamesBelow key bound :=
    fun key hkey => namesBelow_reread hkey (hnode key hkey) index
  rw [renameScope, Fields.renameIndex_of_namesBelow (hread _ (by simp)) hname,
    Fields.renameIndex_of_namesBelow (hread _ (by simp)) hname]

/-- Edges between places below the bound all stay as they are. -/
theorem Edge.filterMap_rename_reread {edges : List Edge} {bound : Nat}
    (hedges : ∀ edge ∈ edges, edge.source < bound ∧ edge.target < bound)
    {name : Nat → Option Nat} (hname : ∀ place < bound, name place = some place) :
    (edges.map reread).filterMap (rename name) = edges.map reread := by
  rw [List.filterMap_map, ← List.filterMap_eq_map']
  refine List.filterMap_congr fun edge hedge => ?_
  obtain ⟨hsource, htarget⟩ := hedges edge hedge
  have hends : edge.reread.source = edge.source ∧ edge.reread.target = edge.target := ⟨rfl, rfl⟩
  rw [Function.comp_apply, rename, hends.1, hends.2, hname _ hsource, hname _ htarget]
  rfl

/-! ## States -/

/-- The state as it is read, but with the table of scopes of a state that has grown from it. -/
def State.rereadFrom (grown : State) (place : Nat) (state : State) : State :=
  { state.reread place with fields := (grown.reread place).fields }

/-- The graph as it is read, but with the tables of scopes of a graph that has grown from it. -/
def Subgraph.rereadFrom (grown : Subgraph) (id : Nat) (graph : Subgraph) : Subgraph :=
  { graph.reread id with
    states := graph.states.mapIdx fun place state =>
      (grown.states.getD place default).rereadFrom place state }

/-- A state has grown by the nodes that are gone again. -/
structure State.GrownBy (gone : Element → Bool) (id place : Nat) (state grown : State) : Prop where
  begins : state.Begins grown
  nodes : ∀ index < grown.nodes.length,
    gone (.node id place index) = decide (state.nodes.length ≤ index)
  edges : grown.edges = state.edges
  joined : ∀ index, gone (.edge id (some place) index) = false

/-- A graph has grown by the states and nodes that are gone again. -/
structure Subgraph.GrownBy (gone : Element → Bool) (id : Nat) (graph grown : Subgraph) : Prop where
  count : graph.states.length ≤ grown.states.length
  states : ∀ place < grown.states.length,
    gone (.state id place) = decide (graph.states.length ≤ place)
  within : ∀ (place : Nat) (state : State), graph.states[place]? = some state →
    ∃ found, grown.states[place]? = some found ∧ state.GrownBy gone id place found
  edges : grown.edges = graph.edges
  joined : ∀ index, gone (.edge id none index) = false
  fields : grown.fields = graph.fields

variable {gone : Element → Bool} {id place : Nat}

theorem Subgraph.value?_reread {graph : Subgraph} {key : String} (hkey : key ∉ ["sdfg_list_id",
    "cfg_list_id", "nodes", "edges"]) (id : Nat) :
    (graph.reread id).fields.value? key = graph.fields.value? key := by
  simp only [List.mem_cons, List.not_mem_nil, or_false, not_or] at hkey
  obtain ⟨hlist, hconfig, hnodes, hedges⟩ := hkey
  rw [reread, Fields.value?_without_of_ne _ _ _ hedges, Fields.value?_without_of_ne _ _ _ hnodes,
    value?_numbered_of_ne hlist hconfig]

/-- Pruning what a state has grown by, from the state as read again, gives the former state as read
again. -/
theorem State.GrownBy.pruned_reread {state grown : State}
    (h : state.GrownBy gone id place grown)
    (hedges : state.EdgesInside)
    (hscopes : ∀ node ∈ state.nodes, ∀ key ∈ ["scope_entry", "scope_exit"],
      node.fields.NamesBelow key state.nodes.length) :
    (grown.reread place).pruned gone id place = grown.rereadFrom place state := by
  have hname : ∀ index < state.nodes.length,
      lowerPlace (fun index => gone (.node id place index)) index = some index :=
    fun index hindex => lowerPlace_of_lt h.begins.nodes.length_le h.nodes hindex
  have hnodes : keep (fun index => gone (.node id place index))
      (grown.nodes.mapIdx Node.reread) = state.nodes.mapIdx Node.reread := by
    obtain ⟨added, hadded⟩ := h.begins.nodes
    rw [← hadded, List.mapIdx_append]
    apply keep_append_eq
    intro index hindex
    rw [← List.mapIdx_append, List.length_mapIdx, hadded] at hindex
    rw [List.length_mapIdx, h.nodes index hindex]
  have hstays : (state.nodes.mapIdx Node.reread).map
      (Node.renameScope (lowerPlace fun index => gone (.node id place index))) =
        state.nodes.mapIdx Node.reread := by
    refine List.ext_getElem? fun index => ?_
    rw [List.getElem?_map, List.getElem?_mapIdx, Option.map_map]
    exact Option.map_congr fun node hnode =>
      Node.renameScope_reread (hscopes node (List.mem_of_getElem? hnode)) hname index
  rw [pruned, rereadFrom, State.mk.injEq]
  simp only [reread, hnodes, hstays, h.edges, keep_of_none h.joined,
    Edge.filterMap_rename_reread hedges hname, and_true]

/-! ## Graphs -/

theorem Subgraph.GrownBy.states_pruned_reread {graph grown : Subgraph}
    (h : graph.GrownBy gone id grown)
    (hedges : graph.EdgesInside) (href : graph.ReferencesInside) :
    keep (fun place => gone (.state id place))
        ((grown.states.mapIdx State.reread).mapIdx (State.pruned gone id)) =
      graph.states.mapIdx fun place state =>
        (grown.states.getD place default).rereadFrom place state := by
  rw [keep_eq_take (by simpa using h.count) (by simpa using h.states)]
  apply List.ext_getElem?
  intro place
  rw [List.getElem?_take, List.getElem?_mapIdx, List.getElem?_mapIdx, List.getElem?_mapIdx]
  cases hstate : graph.states[place]? with
  | none => rw [if_neg (Nat.not_lt.mpr (List.getElem?_eq_none_iff.mp hstate)), Option.map_none]
  | some state =>
      have hmem := List.mem_of_getElem? hstate
      obtain ⟨found, hfound, hgrown⟩ := h.within place state hstate
      rw [if_pos (List.getElem?_eq_some_iff.mp hstate).1, hfound, Option.map_some,
        Option.map_some, Option.map_some, List.getD_eq_getElem?_getD, hfound, Option.getD_some,
        hgrown.pruned_reread (hedges.within state hmem) (href.scopes state hmem)]

/-- What has been added to a graph is taken out again after the graph was read. -/
theorem Subgraph.GrownBy.pruned_reread {graph grown : Subgraph} (h : graph.GrownBy gone id grown)
    (hedges : graph.EdgesInside) (href : graph.ReferencesInside) :
    (grown.reread id).pruned gone id =
      { grown.rereadFrom id graph with owner := grown.owner } := by
  have hname : ∀ place < graph.states.length,
      lowerPlace (fun place => gone (.state id place)) place = some place :=
    fun place hplace => lowerPlace_of_lt h.count h.states hplace
  have hstart : (grown.reread id).fields.renameIndex "start_state"
      (lowerPlace fun place => gone (.state id place)) none = (graph.reread id).fields := by
    have hfields : (grown.reread id).fields = (graph.reread id).fields := by
      rw [reread, reread, h.fields]
    rw [hfields]
    exact Fields.renameIndex_of_namesBelow
      (href.start.congr (Subgraph.value?_reread (by decide) id)) hname none
  rw [pruned, rereadFrom, Subgraph.mk.injEq, hstart]
  refine ⟨h.states_pruned_reread hedges href, ?_, rfl, rfl⟩
  dsimp only [reread]
  rw [keep_of_none h.joined, h.edges, Edge.filterMap_rename_reread hedges.between hname]

/-! ## What is written afterwards -/

namespace State

variable {state grown : State}

/-- The table of scopes that was there is written over. -/
theorem numbered_rereadFrom (h : grown.fields = state.fields) :
    ((grown.rereadFrom place state).numbered place).Same
      (NormalForm.withoutLists (state.numbered place)) := by
  intro key
  refine congrArg (List.map Json.canonical) ?_
  have hfields : ∀ key, (grown.rereadFrom place state).fields.values key =
      if key = "nodes" ∨ key = "edges" then [] else (grown.numbered place).values key :=
    NormalForm.values_withoutLists _
  have htable : (grown.rereadFrom place state).scopeTable = state.scopeTable :=
    scopeTable_reread place state
  have hhas : (grown.rereadFrom place state).fields.has "scope_dict" =
      state.fields.has "scope_dict" := by
    rw [Fields.has_eq_of_values, hfields, if_neg (by decide), values_numbered_scopes, h]
    cases state.fields.has "scope_dict" <;> rfl
  rw [NormalForm.values_withoutLists]
  by_cases hid : key = "id"
  · subst hid
    simp [values_numbered_id]
  by_cases hscopes : key = "scope_dict"
  · subst hscopes
    simp [values_numbered_scopes, htable, hhas]
  · rw [values_numbered_of_ne hid hscopes, hfields, values_numbered_of_ne hid hscopes,
      values_numbered_of_ne hid hscopes, h]

/-- A state read again is written as the state itself, up to the order of the members. -/
theorem encode_rereadFrom (hfields : grown.fields = state.fields) {first second : Nat → Json}
    (h : ∀ id, Json.Same (first id) (second id)) :
    Json.Same ((grown.rereadFrom place state).encode first place) (state.encode second place) :=
  .obj (NormalForm.lists_same (numbered_rereadFrom hfields)
    (Json.same_mapIdx fun index node => node.encode_reread h index)
    (Edge.encodeAll_reread state.edges))

end State

namespace Subgraph

variable {graph grown : Subgraph}

/-- A graph that was read is numbered anew. -/
theorem numbered_numbered (id next : Nat) (fields : Fields) :
    (numbered next (NormalForm.withoutLists (numbered id fields))).Same
      (NormalForm.withoutLists (numbered next fields)) := by
  intro key
  refine congrArg (List.map Json.canonical) ?_
  rw [NormalForm.values_withoutLists]
  by_cases hlist : key = "sdfg_list_id"
  · subst hlist
    simp [values_numbered_list, values_numbered_config, Fields.has_eq_of_values,
      NormalForm.values_withoutLists]
  by_cases hconfig : key = "cfg_list_id"
  · subst hconfig
    simp [values_numbered_config, Fields.has_eq_of_values, NormalForm.values_withoutLists]
  · rw [values_numbered_of_ne hlist hconfig, NormalForm.values_withoutLists,
      values_numbered_of_ne hlist hconfig, values_numbered_of_ne hlist hconfig]

/-- The tables of scopes that were there are written over, and so is the number of the graph. -/
theorem encode_rereadFrom {id next : Nat} (hfields : ∀ (place : Nat) (state : State),
      graph.states[place]? = some state →
        ∃ found, grown.states[place]? = some found ∧ found.fields = state.fields)
    {first second : Nat → Json} (h : ∀ id, Json.Same (first id) (second id)) :
    Json.Same ((grown.rereadFrom id graph).encode first next) (graph.encode second next) := by
  refine .obj (NormalForm.lists_same (numbered_numbered id next graph.fields)
    (Json.same_mapIdx_of fun place state hstate => ?_) (Edge.encodeAll_reread graph.edges))
  obtain ⟨found, hfound, hsame⟩ := hfields place state hstate
  rw [List.getD_eq_getElem?_getD, hfound]
  exact State.encode_rereadFrom hsame h

end Subgraph

/-! ## Arenas -/

theorem Node.reread_named (name : Nat → Nat) (place : Nat) (node : Node) :
    reread place { node with nested := node.nested.bind fun nested => some (name nested) } =
      { node.reread place with
        nested := (node.reread place).nested.bind fun nested => some (name nested) } := by
  obtain ⟨nested, fields⟩ := node
  cases nested <;> rfl

/-- Reading again and renaming the nested graphs may be done in either order. -/
theorem Subgraph.rereadFrom_renameNested (grown graph : Subgraph) (name : Nat → Nat) (id : Nat) :
    grown.rereadFrom id (Arena.renameNested (fun nested => some (name nested)) graph) =
      Arena.renameNested (fun nested => some (name nested)) (grown.rereadFrom id graph) := by
  rw [rereadFrom, rereadFrom, Arena.renameNested, Arena.renameNested, Subgraph.mk.injEq]
  refine ⟨List.ext_getElem? fun place => ?_, rfl, rfl, rfl⟩
  simp only [List.getElem?_mapIdx, List.getElem?_map, Option.map_map]
  refine Option.map_congr fun state _ => ?_
  simp only [Function.comp_apply, State.rereadFrom, State.reread, State.mk.injEq, and_true]
  refine List.ext_getElem? fun index => ?_
  simp only [List.getElem?_mapIdx, List.getElem?_map, Option.map_map]
  exact Option.map_congr fun node _ => Node.reread_named name index node

/-- Reading again changes neither the elements nor their places. -/
theorem Subgraph.outline_rereadFrom (grown graph : Subgraph) (id : Nat) :
    (grown.rereadFrom id graph).outline = graph.outline := by
  have hstates : ∀ (place : Nat) (state : State),
      ((grown.states.getD place default).rereadFrom place state).outline = state.outline :=
    State.outline_reread
  rw [rereadFrom, outline, outline, map_mapIdx_eq hstates]
  dsimp only [reread]
  rw [List.map_map]
  rfl

/-- Renaming the nested graphs leaves the other references inside. -/
theorem Subgraph.ReferencesInside.renameNested {graph : Subgraph} (h : graph.ReferencesInside)
    (rename : Nat → Option Nat) : (Arena.renameNested rename graph).ReferencesInside := by
  refine ⟨?_, fun state hstate node hnode key hkey => ?_⟩
  · simpa [Arena.renameNested] using h.start
  · obtain ⟨original, horiginal, rfl⟩ := List.mem_map.mp hstate
    obtain ⟨found, hfound, rfl⟩ := List.mem_map.mp hnode
    simpa using h.scopes original horiginal found hfound key hkey

namespace Arena

variable {arena grown : Arena} {name : Nat → Nat}

/-- The arena as it is read, but with the tables of scopes and under the numbers of an arena that
has grown from it. -/
def rereadFrom (grown : Arena) (name : Nat → Nat) (arena : Arena) : Arena :=
  ⟨arena.graphs.mapIdx fun id graph =>
    (grown.graphs.getD (name id) default).rereadFrom (name id) graph⟩

/-- An arena has grown by elements that are gone again, and its graphs have got new names. -/
structure GrownBy (gone : Element → Bool) (name : Nat → Nat) (arena grown : Arena) : Prop where
  root : name 0 = 0
  apart : ∀ id other, name id = name other → id = other
  graphs : ∀ (id : Nat) (graph : Subgraph), arena.graphs[id]? = some graph →
    ∃ found, grown.graphs[name id]? = some found ∧
      (renameNested (fun nested => some (name nested)) graph).GrownBy gone (name id) found

theorem rereadFrom_getElem? (id : Nat) :
    (grown.rereadFrom name arena).graphs[id]? = arena.graphs[id]?.map fun graph =>
      (grown.graphs.getD (name id) default).rereadFrom (name id) graph := by
  rw [rereadFrom, List.getElem?_mapIdx]

theorem rereadFrom_length :
    (grown.rereadFrom name arena).graphs.length = arena.graphs.length := by
  rw [rereadFrom, List.length_mapIdx]

/-- Reading an arena again changes neither its elements nor its nesting. -/
theorem outline_rereadFrom : (grown.rereadFrom name arena).outline = arena.outline := by
  rw [outline, rereadFrom, map_mapIdx_eq fun id graph =>
    (grown.graphs.getD (name id) default).outline_rereadFrom graph (name id), outline]

namespace GrownBy

variable (h : arena.GrownBy gone name grown)

include h

/-- Taking out what was added gives the arena back, up to the names of its graphs. -/
theorem renamed (hformed : arena.WellFormed) (href : arena.ReferencesInside) :
    Renamed (List.range arena.graphs.length) name (grown.rereadFrom name arena)
      (grown.reread.pruned gone) := by
  intro id _ graph hgraph
  rw [rereadFrom_getElem?] at hgraph
  obtain ⟨original, horiginal, rfl⟩ := Option.map_eq_some_iff.mp hgraph
  obtain ⟨found, hfound, hgrown⟩ := h.graphs id original horiginal
  have hmem := List.mem_of_getElem? horiginal
  have hback := hgrown.pruned_reread (edgesInside_renameNested (hformed.edges original hmem))
    ((href original hmem).renameNested _)
  refine ⟨found.owner, ?_⟩
  rw [pruned_getElem?, reread_getElem?, hfound, Option.map_some, Option.map_some, hback,
    Subgraph.rereadFrom_renameNested, List.getD_eq_getElem?_getD, hfound, Option.getD_some]

/-- Pruning what an arena has grown by, from the arena as read again, gives the former arena as read
again. -/
theorem renumber_pruned (hformed : arena.WellFormed) (href : arena.ReferencesInside) :
    (grown.reread.pruned gone).renumber = grown.rereadFrom name arena := by
  have hback : (grown.rereadFrom name arena).WellFormed := hformed.of_outline outline_rereadFrom
  have hreach := hback.reaches
  rw [rereadFrom_length] at hreach
  rw [(h.renamed hformed href).renumber_eq hreach h.root fun id _ other _ => h.apart id other,
    hback.renumber_eq]

/-- Reading again makes no difference to how a graph is written, up to the order of the members. -/
theorem encodeWithin (fuel id : Nat) :
    Json.Same ((grown.rereadFrom name arena).encodeWithin fuel id)
      (arena.encodeWithin fuel id) := by
  induction fuel generalizing id with
  | zero => exact .rfl
  | succ fuel ih =>
      rw [Arena.encodeWithin, Arena.encodeWithin, rereadFrom_getElem?]
      cases hgraph : arena.graphs[id]? with
      | none => exact .rfl
      | some graph =>
          obtain ⟨found, hfound, hgrown⟩ := h.graphs id graph hgraph
          rw [Option.map_some, List.getD_eq_getElem?_getD, hfound, Option.getD_some]
          refine Subgraph.encode_rereadFrom (fun place state hstate => ?_) ih
          obtain ⟨again, hagain, hstays⟩ := hgrown.within place _
            (by rw [renameNested, List.getElem?_map, hstate, Option.map_some])
          exact ⟨again, hagain, hstays.begins.fields⟩

theorem toJson_same : Json.Same (grown.rereadFrom name arena).toJson arena.toJson := by
  rw [toJson, rereadFrom_length]
  exact h.encodeWithin _ 0

end GrownBy

/-! ## Extensions that can be undone -/

/-- Removing the listed elements undoes an extension: they are all that is new, apart from the
graphs that go with their owners, and no edge is among them. -/
structure Undoable (before after : Arena) (name : Nat → Nat) (new elements : List Element) :
    Prop where
  extension : before.Extends after name none new
  root : name 0 = 0
  apart : ∀ id other, name id = name other → id = other
  listed : ∀ element, element ∈ elements ↔ element ∈ new ∧ ∀ id, element ≠ .graph id
  unjoined : ∀ id place index, .edge id place index ∉ elements

namespace Undoable

variable {before after : Arena} {new elements : List Element}
  (h : before.Undoable after name new elements)

include h

/-- Of what is live afterwards, the listed elements are those that were not live before. -/
theorem mem_iff (element : Element) (hgraph : ∀ id, element ≠ .graph id)
    (hlive : after.contains (element.renamed name) = true) :
    element.renamed name ∈ elements ↔ before.contains element = false := by
  have hrenamed : ∀ id, element.renamed name ≠ .graph id := by
    intro id
    cases element with
    | graph id => exact absurd rfl (hgraph id)
    | _ => simp [Element.renamed]
  rw [h.listed, and_iff_left hrenamed]
  constructor
  · intro hmem
    rw [← Bool.not_eq_true]
    exact fun hold => h.extension.fresh element hold hmem
  · intro hfresh
    rcases (h.extension.live _).mp hlive with hmem | ⟨old, hold, heq⟩
    · exact hmem
    · rw [Element.renamed_injective h.apart heq, hfresh] at hold
      cases hold

/-- No edge is new in a former graph. -/
theorem edge_live {id index : Nat} {place : Option Nat}
    (hlive : after.contains (.edge (name id) place index) = true) :
    before.contains (.edge id place index) = true := by
  by_contra hfresh
  refine h.unjoined _ _ _ ((h.mem_iff (.edge id place index) (fun _ => by simp) hlive).mpr ?_)
  exact Bool.not_eq_true _ ▸ hfresh

variable {id place : Nat} {graph found : Subgraph} {state grown : State}

/-- A state that was extended at its end has grown by the new elements. -/
theorem state_grownBy (hgraph : before.graphs[id]? = some graph)
    (hfound : after.graphs[name id]? = some found) (hstate : graph.states[place]? = some state)
    (hgrown : found.states[place]? = some grown) {renamed : State}
    (hnodes : renamed.nodes.length = state.nodes.length) (hedges : renamed.edges = state.edges)
    (hbegins : renamed.Begins grown) :
    renamed.GrownBy (fun element => decide (element ∈ elements)) (name id) place grown := by
  have hplace := state_eq_ok.mpr ⟨graph, hgraph, hstate⟩
  have hplace' := state_eq_ok.mpr ⟨found, hfound, hgrown⟩
  refine ⟨hbegins, fun index hindex => ?_, ?_, fun index => decide_eq_false (h.unjoined _ _ _)⟩
  · have hmem := h.mem_iff (.node id place index) (fun _ => by simp)
      ((contains_node_iff hplace').mpr hindex)
    refine decide_eq_decide.mpr (hmem.trans ?_)
    rw [← Bool.not_eq_true, contains_node_iff hplace, Nat.not_lt, hnodes]
  · refine (hbegins.edges.eq_of_length_le (Nat.le_of_not_lt fun hmore => ?_)).symm
    have hlive := h.edge_live ((contains_within_iff hplace').mpr hmore)
    rw [contains_within_iff hplace, hedges] at hlive
    exact Nat.lt_irrefl _ hlive

/-- So has a graph whose states and edges were extended at their ends. -/
theorem graph_grownBy (hgraph : before.graphs[id]? = some graph)
    (hfound : after.graphs[name id]? = some found)
    (hbegins : (renameNested (fun nested => some (name nested)) graph).Begins found)
    (hfields : found.fields = graph.fields) :
    (renameNested (fun nested => some (name nested)) graph).GrownBy
      (fun element => decide (element ∈ elements)) (name id) found := by
  refine ⟨?_, fun place hplace => ?_, ?_, ?_, fun index => decide_eq_false (h.unjoined _ _ _),
    hfields⟩
  · by_contra hfewer
    obtain ⟨grown, hgrown, _⟩ := hbegins.states found.states.length _
      (List.getElem?_eq_getElem (Nat.lt_of_not_le hfewer))
    exact Nat.lt_irrefl _ (List.getElem?_eq_some_iff.mp hgrown).1
  · have hmem := h.mem_iff (.state id place) (fun _ => by simp)
      ((contains_state_iff hfound).mpr hplace)
    refine decide_eq_decide.mpr (hmem.trans ?_)
    rw [← Bool.not_eq_true, contains_state_iff hgraph, Nat.not_lt, renameNested, List.length_map]
  · intro place renamed hrenamed
    obtain ⟨grown, hgrown, hstate⟩ := hbegins.states place renamed hrenamed
    rw [renameNested, List.getElem?_map] at hrenamed
    obtain ⟨state, horiginal, rfl⟩ := Option.map_eq_some_iff.mp hrenamed
    exact ⟨grown, hgrown, h.state_grownBy hgraph hfound horiginal hgrown (List.length_map _) rfl
      hstate⟩
  · refine (hbegins.edges.eq_of_length_le (Nat.le_of_not_lt fun hmore => ?_)).symm
    have hlive := h.edge_live ((contains_between_iff hfound).mpr hmore)
    rw [contains_between_iff hgraph] at hlive
    exact Nat.lt_irrefl _ hlive

theorem grownBy : before.GrownBy (fun element => decide (element ∈ elements)) name after := by
  refine ⟨h.root, h.apart, fun id graph hgraph => ?_⟩
  obtain ⟨found, hfound, hbegins, hfields⟩ := h.extension.kept id graph hgraph
  exact ⟨found, hfound, h.graph_grownBy hgraph hfound hbegins (hfields nofun)⟩

end Undoable

end Arena

end DataflowEditor
