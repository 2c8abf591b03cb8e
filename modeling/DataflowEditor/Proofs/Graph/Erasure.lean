import DataflowEditor.Proofs.Graph.Detaching
import DataflowEditor.Proofs.Graph.Ownership
import DataflowEditor.Proofs.Graph.Remaining
import Mathlib.Logic.Relation

/-! # What erasing an element changes

A node goes with its edges and with the graphs below it, a state with its nodes as well. In the list
that the element goes from, the places behind it are one lower, and so is whatever names one of
them. Everything else stays, but for the numbers of the graphs that stand behind a dropped one. What
is said here of an erasure is said without the functions that carry it out.
-/

namespace DataflowEditor

/-! ## References to places -/

/-- Where a place other than the removed one is found. -/
def placeWithout (removed place : Nat) : Nat :=
  if removed < place then place - 1 else place

/-- The edges that do not touch the removed element, in order, joining what they joined. -/
def edgesWithout (removed : Nat) (edges : List Edge) : List Edge :=
  (edges.filter fun edge => edge.source ≠ removed ∧ edge.target ≠ removed).map fun edge =>
    { edge with
      source := placeWithout removed edge.source, target := placeWithout removed edge.target }

/-- What is left of a value that may name an element by its place, in digits or as a number. If it
names the removed element, `dangling` is. -/
inductive Json.Lowers (removed : Nat) (dangling : Option Json) : Json → Option Json → Prop
  | free {value : Json} : value.asIndex? = none → Lowers removed dangling value (some value)
  | before {value : Json} {place : Nat} :
      value.asIndex? = some place → place < removed → Lowers removed dangling value (some value)
  | lost {value : Json} : value.asIndex? = some removed → Lowers removed dangling value dangling
  | text {text : String} {place : Nat} :
      (Json.str text).asIndex? = some place → removed < place →
      Lowers removed dangling (.str text) (some (.str (Text.decimal (place - 1))))
  | number {number : Number} {place : Nat} :
      (Json.num number).asIndex? = some place → removed < place →
      Lowers removed dangling (.num number) (some (.nat (place - 1)))

/-- The members of some keys follow the elements that they name, and no other member changes. -/
structure Fields.Lowered (keys : List String) (removed : Nat) (dangling : Option Json)
    (before after : Fields) : Prop where
  unset : ∀ key ∈ keys, before.value? key = none → after.value? key = none
  set : ∀ key ∈ keys, ∀ value, before.value? key = some value →
    value.Lowers removed dangling (after.value? key)
  others : ∀ key ∉ keys, after.values key = before.values key

/-! ## One graph -/

/-- The state after a node is gone. -/
structure State.LosesNode (before : State) (index : Nat) (after : State) : Prop where
  nodes : List.Forall₂ (fun old new => new.nested = old.nested ∧
    Fields.Lowered ["scope_entry", "scope_exit"] index (some .null) old.fields new.fields)
    (before.nodes.eraseIdx index) after.nodes
  edges : after.edges = edgesWithout index before.edges
  fields : after.fields = before.fields

/-- The graph after a state is gone. -/
structure Subgraph.LosesState (before : Subgraph) (place : Nat) (after : Subgraph) : Prop where
  states : after.states = before.states.eraseIdx place
  edges : after.edges = edgesWithout place before.edges
  fields : Fields.Lowered ["start_state"] place none before.fields after.fields

/-- The graph after one of its elements is gone. Only what the element lies in changes. -/
inductive Subgraph.Loses (before : Subgraph) : Element → Subgraph → Prop
  | state {id place : Nat} {after : Subgraph} :
      before.LosesState place after → Loses before (.state id place) after
  | node {id place index : Nat} {state after : State} :
      before.states[place]? = some state → state.LosesNode index after →
      Loses before (.node id place index) { before with states := before.states.set place after }
  | within {id place index : Nat} {state : State} :
      before.states[place]? = some state →
      Loses before (.edge id (some place) index)
        { before with
          states := before.states.set place { state with edges := state.edges.eraseIdx index } }
  | between {id index : Nat} :
      Loses before (.edge id none index) { before with edges := before.edges.eraseIdx index }

/-! ## Whole arenas -/

/-- The graph lies in the subtree below the element. -/
def Arena.LiesBelow (arena : Arena) (element : Element) (id : Nat) : Prop :=
  Relation.TransGen arena.Holds element (.graph id)

/-- What is left of an arena after an element is gone. The graphs below it are dropped, the others
keep their order, and their contents are the same but for the graph that the element lay in. -/
structure Arena.Erased (arena : Arena) (element : Element) (result : Arena) : Prop where
  /-- In particular every graph has on record the node that owns it now. -/
  wellFormed : result.WellFormed
  graphs : ∃ dropped : Nat → Bool, (∀ id, dropped id = true ↔ arena.LiesBelow element id) ∧
    result.graphs.length = arena.graphs.length - goneBelow dropped arena.graphs.length ∧
      ∀ id graph, arena.graphs[id]? = some graph → dropped id = false → ∃ kept owner,
        (if id = element.graphIndex then graph.Loses element kept else kept = graph) ∧
          (∀ nested ∈ kept.children, dropped nested = false) ∧
            result.graphs[id - goneBelow dropped id]? = some
              { renameNested (fun nested => some (nested - goneBelow dropped nested)) kept with
                owner := owner }

/-! ## References that name something -/

/-- A field names a place below the bound, if any. -/
def Fields.NamesBelow (fields : Fields) (key : String) (bound : Nat) : Prop :=
  ∀ place, (fields.value? key).bind Json.asIndex? = some place → place < bound

/-- The first state and all scopes are there. -/
structure Subgraph.ReferencesInside (graph : Subgraph) : Prop where
  start : graph.fields.NamesBelow "start_state" graph.states.length
  scopes : ∀ state ∈ graph.states, ∀ node ∈ state.nodes, ∀ key ∈ ["scope_entry", "scope_exit"],
    node.fields.NamesBelow key state.nodes.length

def Arena.ReferencesInside (arena : Arena) : Prop :=
  ∀ graph ∈ arena.graphs, graph.ReferencesInside

instance (fields : Fields) (key : String) (bound : Nat) :
    Decidable (fields.NamesBelow key bound) :=
  inferInstanceAs (Decidable (∀ place ∈ (fields.value? key).bind Json.asIndex?, place < bound))

instance : DecidablePred Subgraph.ReferencesInside := fun graph =>
  decidable_of_iff (graph.fields.NamesBelow "start_state" graph.states.length ∧
      ∀ state ∈ graph.states, ∀ node ∈ state.nodes, ∀ key ∈ ["scope_entry", "scope_exit"],
        node.fields.NamesBelow key state.nodes.length)
    ⟨fun ⟨start, scopes⟩ => ⟨start, scopes⟩, fun ⟨start, scopes⟩ => ⟨start, scopes⟩⟩

instance : DecidablePred Arena.ReferencesInside := fun arena =>
  inferInstanceAs (Decidable (∀ graph ∈ arena.graphs, graph.ReferencesInside))

/-- Whether an index stays below a bound is a matter of the field's own value. -/
theorem Fields.NamesBelow.congr {first second : Fields} {key : String} {bound : Nat}
    (h : first.NamesBelow key bound) (hvalue : second.value? key = first.value? key) :
    second.NamesBelow key bound := fun place hplace => h place (by rwa [← hvalue])

/-! ## Renamed fields and edges -/

section Places

variable {removed : Nat}

theorem shiftPlace_self : shiftPlace removed removed = none :=
  if_pos rfl

theorem shiftPlace_of_ne {place : Nat} (h : place ≠ removed) :
    shiftPlace removed place = some (placeWithout removed place) := by
  rw [shiftPlace, if_neg h, placeWithout]
  split <;> rfl

/-- Renaming along the removal of a place drops the edges at that place and lowers the ends behind
it. -/
theorem Edge.rename_shiftPlace (edge : Edge) : edge.rename (shiftPlace removed) =
    if edge.source ≠ removed ∧ edge.target ≠ removed then
      some { edge with
        source := placeWithout removed edge.source, target := placeWithout removed edge.target }
    else none := by
  split
  next h => rw [rename, shiftPlace_of_ne h.1, shiftPlace_of_ne h.2]
  next h =>
    apply rename_eq_none
    by_cases hsource : edge.source = removed
    · exact .inl (hsource ▸ shiftPlace_self)
    · have htarget : edge.target = removed := by
        by_contra hne
        exact h ⟨hsource, hne⟩
      exact .inr (htarget ▸ shiftPlace_self)

/-- The edges that a state keeps are those that the renaming keeps. -/
theorem edgesWithout_eq (edges : List Edge) :
    edges.filterMap (Edge.rename (shiftPlace removed)) = edgesWithout removed edges := by
  induction edges with
  | nil => rfl
  | cons edge rest ih =>
      rw [edgesWithout] at ih ⊢
      rw [List.filterMap_cons, List.filter_cons, Edge.rename_shiftPlace, ih]
      by_cases h : edge.source ≠ removed ∧ edge.target ≠ removed <;> simp [h]

end Places

namespace Fields

variable {fields : Fields} {key other : String} {removed : Nat} {dangling : Option Json}

theorem values_renameIndex_of_ne (name : Nat → Option Nat) (dangling : Option Json)
    (h : other ≠ key) : (fields.renameIndex key name dangling).values other =
      fields.values other := by
  rcases renameIndex_cases fields key name dangling with hsame | ⟨_, value, hput⟩ | hwithout
  · rw [hsame fields rfl]
  · rw [hput fields rfl, values_put, if_neg h]
  · rw [hwithout fields rfl, values_without, if_neg h]

theorem renameIndex_unset (name : Nat → Option Nat) (dangling : Option Json)
    (h : fields.value? key = none) : (fields.renameIndex key name dangling).value? key = none := by
  simp [renameIndex, h]

/-- Renaming along a removal is lowering: a value naming the removed place dangles, a later one
drops by one. -/
theorem renameIndex_lowers {value : Json} (h : fields.value? key = some value) :
    value.Lowers removed dangling
      ((fields.renameIndex key (shiftPlace removed) dangling).value? key) := by
  cases hindex : value.asIndex? with
  | none =>
      have hsame : (fields.renameIndex key (shiftPlace removed) dangling).value? key =
          some value := by
        simp [renameIndex, h, hindex]
      rw [hsame]
      exact .free hindex
  | some place =>
      rcases Nat.lt_trichotomy place removed with hlt | rfl | hgt
      · have hname : shiftPlace removed place = some place := by
          rw [shiftPlace_of_ne hlt.ne, placeWithout, if_neg (Nat.lt_asymm hlt)]
        have hsame : (fields.renameIndex key (shiftPlace removed) dangling).value? key =
            some value := by
          simp [renameIndex, h, hindex, hname]
        rw [hsame]
        exact .before hindex hlt
      · have hlost : (fields.renameIndex key (shiftPlace place) dangling).value? key =
            dangling := by
          cases dangling <;> simp [renameIndex, h, hindex, shiftPlace_self]
        rw [hlost]
        exact .lost hindex
      · have hname : shiftPlace removed place = some (place - 1) := by
          rw [shiftPlace_of_ne hgt.ne', placeWithout, if_pos hgt]
        have hne : place - 1 ≠ place := by omega
        have hput : (fields.renameIndex key (shiftPlace removed) dangling).value? key =
            some (value.reindexed (place - 1)) := by
          simp [renameIndex, h, hindex, hname, hne]
        rw [hput]
        -- Only texts and numbers are read as places.
        cases value with
        | str text => exact .text hindex hgt
        | num number => exact .number hindex hgt
        | _ => cases hindex

end Fields

/-- Removing a node lowers the two scope indices of every node that stays, and no other field. -/
theorem Node.renameScope_lowered (node : Node) (removed : Nat) :
    Fields.Lowered ["scope_entry", "scope_exit"] removed (some .null) node.fields
      (node.renameScope (shiftPlace removed)).fields := by
  have hentry : ((node.fields.renameIndex "scope_entry" (shiftPlace removed)
      (some .null)).renameIndex "scope_exit" (shiftPlace removed) (some .null)).value?
        "scope_entry" = (node.fields.renameIndex "scope_entry" (shiftPlace removed)
          (some .null)).value? "scope_entry" :=
    Fields.value?_renameIndex_of_ne _ _ (by decide)
  have hexit : (node.fields.renameIndex "scope_entry" (shiftPlace removed) (some .null)).value?
      "scope_exit" = node.fields.value? "scope_exit" :=
    Fields.value?_renameIndex_of_ne _ _ (by decide)
  rw [renameScope]
  dsimp only
  refine ⟨fun key hkey hnone => ?_, fun key hkey value hvalue => ?_, fun key hkey => ?_⟩
  · rcases List.mem_pair.mp hkey with rfl | rfl
    · rw [hentry]
      exact Fields.renameIndex_unset _ _ hnone
    · exact Fields.renameIndex_unset _ _ (hexit.trans hnone)
  · rcases List.mem_pair.mp hkey with rfl | rfl
    · rw [hentry]
      exact Fields.renameIndex_lowers hvalue
    · exact Fields.renameIndex_lowers (hexit.trans hvalue)
  · rw [List.mem_pair, not_or] at hkey
    rw [Fields.values_renameIndex_of_ne _ _ hkey.2, Fields.values_renameIndex_of_ne _ _ hkey.1]

/-! ## Detached elements -/

/-- Erasing a node from a state is losing that node and nothing else. -/
theorem State.eraseNode_loses (state : State) (index : Nat) :
    state.LosesNode index (state.eraseNode index) where
  nodes := by
    rw [eraseNode, List.forall₂_map_right_iff, List.forall₂_same]
    exact fun node _ => ⟨rfl, node.renameScope_lowered index⟩
  edges := edgesWithout_eq state.edges
  fields := rfl

/-- Erasing a state from a graph is losing that state and nothing else. -/
theorem Subgraph.eraseState_loses (graph : Subgraph) (place : Nat) :
    graph.LosesState place (graph.eraseState place) where
  states := rfl
  edges := edgesWithout_eq graph.edges
  fields := by
    refine ⟨fun key hkey hnone => ?_, fun key hkey value hvalue => ?_, fun key hkey => ?_⟩
    · obtain rfl := List.mem_singleton.mp hkey
      exact Fields.renameIndex_unset (shiftPlace place) none hnone
    · obtain rfl := List.mem_singleton.mp hkey
      exact Fields.renameIndex_lowers hvalue
    · exact Fields.values_renameIndex_of_ne (shiftPlace place) none (by simpa using hkey)

theorem modify_eq_set {α : Type} {items : List α} {place : Nat} {item : α}
    (h : items[place]? = some item) (change : α → α) :
    items.modify place change = items.set place (change item) := by
  rw [List.modify_eq_set_getElem?, h]
  rfl

/-- Taking out a state, a node or an edge leaves its graph without that element and otherwise as it
was. -/
theorem Subgraph.detach_loses {graph : Subgraph} {element : Element} (h : graph.Has element)
    (hgraph : ∀ id, element ≠ .graph id) : graph.Loses element (graph.detach element) := by
  cases element with
  | graph id => exact absurd rfl (hgraph id)
  | state id place => exact .state (graph.eraseState_loses place)
  | node id place index =>
      obtain ⟨state, hstate, _⟩ := h
      rw [detach, modify_eq_set hstate]
      exact .node hstate (state.eraseNode_loses index)
  | edge id place index =>
      cases place with
      | none => exact .between
      | some place =>
          obtain ⟨state, hstate, _⟩ := h
          rw [detach, modify_eq_set hstate]
          exact .within hstate

namespace Arena

variable {arena : Arena} {element : Element}

/-! ## Dropped graphs -/

/-- An element lies in the graph of what holds it, or in a graph with a larger index. -/
theorem WellFormed.graphIndex_le_of_holds (h : arena.WellFormed) {outer inner : Element}
    (hholds : arena.Holds outer inner) : outer.graphIndex ≤ inner.graphIndex := by
  cases hholds with
  | nested howns => exact (h.lt_of_owns howns).1.le
  | _ => exact Nat.le_refl _

/-- The graphs below an element come after the graph that the element lies in. -/
theorem WellFormed.lt_of_liesBelow (h : arena.WellFormed) {id : Nat}
    (hbelow : arena.LiesBelow element id) : element.graphIndex < id := by
  obtain ⟨outer, hreach, hholds⟩ := Relation.TransGen.tail'_iff.mp hbelow
  have hle : element.graphIndex ≤ outer.graphIndex := by
    clear hholds
    induction hreach with
    | refl => exact Nat.le_refl _
    | tail _ hstep ih => exact ih.trans (h.graphIndex_le_of_holds hstep)
  cases hholds with
  | nested howns => exact hle.trans_lt (h.lt_of_owns howns).1

/-- What is removed with one element lies below it, or is an edge. -/
theorem Removed.reaches_or_edge {inner : Element} (h : arena.Removed (· = element) inner) :
    Relation.ReflTransGen arena.Holds element inner ∨
      ∃ id place index, inner = .edge id place index := by
  induction h with
  | target htarget => exact .inl (htarget ▸ .refl)
  | inside _ hholds ih =>
      rcases ih with hbelow | ⟨id, place, index, rfl⟩
      · exact .inl (hbelow.tail hholds)
      · cases hholds
  | within => exact .inr ⟨_, _, _, rfl⟩
  | between => exact .inr ⟨_, _, _, rfl⟩

/-- Whatever lies below a removed element is removed. -/
theorem removed_of_below {inner : Element} (h : Relation.ReflTransGen arena.Holds element inner) :
    arena.Removed (· = element) inner := by
  induction h with
  | refl => exact .target rfl
  | tail _ hholds ih => exact .inside ih hholds

/-- Removing an element that is no graph removes exactly the graphs that lie below it. -/
theorem removed_graph_iff (hgraph : ∀ id, element ≠ .graph id) (id : Nat) :
    arena.Removed (· = element) (.graph id) ↔ arena.LiesBelow element id := by
  constructor
  · intro h
    rcases h.reaches_or_edge with hbelow | ⟨_, _, _, hedge⟩
    · exact (Relation.reflTransGen_iff_eq_or_transGen.mp hbelow).resolve_left
        (Ne.symm (hgraph id))
    · cases hedge
  · exact fun h => removed_of_below h.to_reflTransGen

/-! ## Erased elements -/

/-- Detaching one element is pruning by the test for that element. -/
theorem detach_eq_pruned (hgraph : ∀ id, element ≠ .graph id) :
    arena.detach element = arena.pruned fun other => decide (other = element) := by
  have hnone : arena.pruned (fun _ => false) = arena := pruned_of_none fun _ => rfl
  have hplace : element.InPlace fun _ => false := by
    cases element with
    | graph id => exact absurd rfl (hgraph id)
    | edge id place index => cases place <;> simp [Element.InPlace]
    | _ => simp [Element.InPlace]
  conv_lhs => rw [← hnone]
  exact detach_pruned hplace

/-- Pruned by a live element, its graph has lost the element, and every other graph is as it was. -/
theorem pruned_loses (hlive : arena.contains element = true)
    (hgraph : ∀ id, element ≠ .graph id) {id : Nat} {graph : Subgraph}
    (hfound : arena.graphs[id]? = some graph) :
    if id = element.graphIndex then
      graph.Loses element (graph.pruned (fun other => decide (other = element)) id)
    else graph.pruned (fun other => decide (other = element)) id = graph := by
  have hdetached : (arena.detach element).graphs[id]? =
      (arena.pruned fun other => decide (other = element)).graphs[id]? := by
    rw [detach_eq_pruned hgraph]
  simp only [detach, modifyGraph_getElem?, pruned_getElem?, hfound, Option.map_some,
    Option.some.injEq] at hdetached
  split
  next heq =>
    subst heq
    obtain ⟨found, hother, hhas⟩ := contains_iff_has.mp hlive
    obtain rfl := Option.some.inj (hfound.symm.trans hother)
    rw [if_pos rfl] at hdetached
    exact hdetached ▸ Subgraph.detach_loses hhas hgraph
  next hne =>
    rw [if_neg (Ne.symm hne)] at hdetached
    exact hdetached.symm

/-- The graphs that are nested in what is left of a graph stay with it. -/
theorem WellFormed.nested_stays (h : arena.WellFormed) {targets : Element → Prop}
    {gone removed : Element → Bool} (hgone : Tells gone targets)
    (hremoved : Tells removed (arena.Removed targets)) (htargets : ∀ id, ¬ targets (.graph id))
    {id : Nat} {graph : Subgraph} (hfound : arena.graphs[id]? = some graph)
    (hstays : removed (.graph id) = false) :
    ∀ nested ∈ (graph.pruned gone id).children, removed (.graph nested) = false := by
  intro nested hmem
  have hchild : nested ∈ (arena.pruned gone).childrenAt id := by
    rw [childrenAt, pruned_getElem?, hfound]
    exact hmem
  obtain ⟨location, howns, rfl, hstate, hnode⟩ := mem_childrenAt_pruned.mp hchild
  refine h.owned_stays hremoved htargets howns ((hremoved.false_iff _).mpr ?_)
  rw [Element.ofLocation, removed_node, removed_state, not_or, not_or]
  exact ⟨(hgone.false_iff _).mp hnode, (hgone.false_iff _).mp hstate,
    (hremoved.false_iff _).mp hstays⟩

/-- What is left after a live element is erased. -/
theorem WellFormed.erased (h : arena.WellFormed) (hlive : arena.contains element = true)
    (hgraph : ∀ id, element ≠ .graph id) :
    ∃ result, arena.erase element = .ok result ∧ arena.Erased element result := by
  classical
  have herase := h.erase_eq hlive hgraph
  refine ⟨_, herase, h.erase herase, ?_⟩
  let gone : Element → Bool := fun other => decide (other = element)
  let removed : Element → Bool := fun other => decide (arena.Removed (· = element) other)
  have hgone : Tells gone (· = element) := fun other => decide_eq_true_iff
  have hremoved : Tells removed (arena.Removed (· = element)) := fun other => decide_eq_true_iff
  have htargets : ∀ id, ¬ Element.graph id = element := fun id heq => hgraph id heq.symm
  have hdropped : ∀ id, removed (.graph id) = true ↔ arena.LiesBelow element id := fun id =>
    (hremoved _).trans (removed_graph_iff hgraph id)
  have hresult : (arena.detach element).renumber = arena.deleted removed := by
    rw [detach_eq_pruned hgraph]
    exact h.renumber_pruned hgone hremoved htargets
  rw [hresult]
  refine ⟨fun id => removed (.graph id), hdropped, ?_, fun id graph hfound hstays => ?_⟩
  · rw [deleted, recordOwners, List.length_mapIdx, List.length_map, length_keep, pruned_length]
  · obtain ⟨owner, hkept⟩ := graphs_deleted hfound
      (lowerPlace_of_stays (fun id => removed (.graph id)) hstays)
    have hnested := h.nested_stays hgone hremoved htargets hfound hstays
    refine ⟨graph.pruned gone id, owner, pruned_loses hlive hgraph hfound, hnested, ?_⟩
    -- Pruned by all that is removed, the graph is the same.
    have hpruned : graph.pruned removed id = graph.pruned gone id :=
      (pruned_removed hgone hremoved hfound hstays).symm
    rw [hkept, hpruned]
    rw [renameNested_congr fun nested hmem =>
      lowerPlace_of_stays (fun id => removed (.graph id)) (hnested nested hmem)]

end Arena

/-! ## References after an erasure -/

theorem forall_mem_of_forall₂ {α β : Type} {R : α → β → Prop} {P : α → Prop} {Q : β → Prop}
    {before : List α} {after : List β} (h : List.Forall₂ R before after)
    (hbefore : ∀ a ∈ before, P a) (hstep : ∀ a b, R a b → P a → Q b) : ∀ b ∈ after, Q b := by
  induction h with
  | nil => simp
  | cons hfirst _ ih =>
      obtain ⟨hself, hrest⟩ := List.forall_mem_cons.mp hbefore
      exact List.forall_mem_cons.mpr ⟨hstep _ _ hfirst hself, ih hrest⟩

/-- A place other than the removed one is a place of the shorter list. -/
theorem placeWithout_lt {α : Type} {items : List α} {removed place : Nat}
    (hplace : place < items.length) (hne : place ≠ removed) :
    placeWithout removed place < (items.eraseIdx removed).length := by
  rw [placeWithout, List.length_eraseIdx]
  split <;> split <;> omega

/-- The shorter list has at the lowered place what the list had at the place itself. -/
theorem getElem?_eraseIdx_placeWithout {α : Type} (items : List α) {removed place : Nat}
    (h : place ≠ removed) :
    (items.eraseIdx removed)[placeWithout removed place]? = items[place]? := by
  rw [List.getElem?_eraseIdx, placeWithout]
  by_cases hbehind : removed < place
  · rw [if_pos hbehind, if_neg (by omega), Nat.sub_add_cancel (by omega)]
  · rw [if_neg hbehind, if_pos (by omega)]

/-- What is left of a value is read as the place where the named element is now. -/
theorem Json.Lowers.bind_asIndex? {value : Json} {after dangling : Option Json} {removed : Nat}
    (h : value.Lowers removed dangling after) (hdangling : dangling.bind asIndex? = none) :
    after.bind asIndex? = value.asIndex?.bind (shiftPlace removed) := by
  cases h with
  | free hindex => rw [hindex, Option.bind_some, hindex, Option.bind_none]
  | before hindex hlt =>
      rw [Option.bind_some, hindex, Option.bind_some, shiftPlace_of_ne hlt.ne, placeWithout,
        if_neg (Nat.lt_asymm hlt)]
  | lost hindex => rw [hdangling, hindex, Option.bind_some, shiftPlace_self]
  | @text text place hindex hgt =>
      have hfits := asIndex?_lt hindex
      rw [hindex, Option.bind_some, Option.bind_some, shiftPlace_of_ne hgt.ne', placeWithout,
        if_pos hgt, asIndex?_decimal (by omega)]
  | @number number place hindex hgt =>
      have hfits := asIndex?_lt hindex
      have hread : (nat (place - 1)).asIndex? = some (place - 1) :=
        asIndex?_reindexed (.num number) (by omega)
      rw [hindex, Option.bind_some, Option.bind_some, shiftPlace_of_ne hgt.ne', placeWithout,
        if_pos hgt, hread]

/-- What is still read as a place names another element than the removed one, where that is now. -/
theorem Json.Lowers.place {value : Json} {after dangling : Option Json} {removed next : Nat}
    (h : value.Lowers removed dangling after) (hdangling : dangling.bind asIndex? = none)
    (hafter : after.bind asIndex? = some next) : ∃ place, value.asIndex? = some place ∧
      place ≠ removed ∧ next = placeWithout removed place := by
  rw [h.bind_asIndex? hdangling] at hafter
  obtain ⟨place, hindex, hshift⟩ := Option.bind_eq_some_iff.mp hafter
  have hne : place ≠ removed := by
    rintro rfl
    simp [shiftPlace_self] at hshift
  rw [shiftPlace_of_ne hne] at hshift
  exact ⟨place, hindex, hne, (Option.some.inj hshift).symm⟩

/-- Lowering keeps an index inside the list that the removal has shortened. -/
theorem Fields.Lowered.namesBelow {α : Type} {items : List α} {keys : List String} {key : String}
    {removed : Nat} {dangling : Option Json} {before after : Fields}
    (h : Fields.Lowered keys removed dangling before after) (hkey : key ∈ keys)
    (hdangling : dangling.bind Json.asIndex? = none)
    (hbefore : before.NamesBelow key items.length) :
    after.NamesBelow key (items.eraseIdx removed).length := by
  intro next hnext
  cases hvalue : before.value? key with
  | none => simp [h.unset key hkey hvalue] at hnext
  | some value =>
      obtain ⟨place, hindex, hne, rfl⟩ := (h.set key hkey value hvalue).place hdangling hnext
      exact placeWithout_lt (hbefore place (by rw [hvalue, Option.bind_some, hindex])) hne

/-- Replacing a state keeps the references inside when the new state's own references are. -/
theorem Subgraph.ReferencesInside.set {graph : Subgraph} (h : graph.ReferencesInside) (place : Nat)
    {state : State} (hstate : ∀ node ∈ state.nodes, ∀ key ∈ ["scope_entry", "scope_exit"],
      node.fields.NamesBelow key state.nodes.length) :
    Subgraph.ReferencesInside { graph with states := graph.states.set place state } := by
  refine ⟨by simpa using h.start, fun other hother => ?_⟩
  rcases List.mem_or_eq_of_mem_set hother with hold | rfl
  · exact h.scopes other hold
  · exact hstate

/-- A graph that loses an element keeps its start state and its scope indices inside. -/
theorem Subgraph.Loses.referencesInside {graph kept : Subgraph} {element : Element}
    (h : graph.Loses element kept) (hinside : graph.ReferencesInside) : kept.ReferencesInside := by
  cases h with
  | state hlost =>
      refine ⟨?_, fun other hother => ?_⟩
      · rw [hlost.states]
        exact hlost.fields.namesBelow List.mem_cons_self rfl hinside.start
      · rw [hlost.states] at hother
        exact hinside.scopes other (List.mem_of_mem_eraseIdx hother)
  | @node _ place _ state after hstate hlost =>
      have hold := hinside.scopes state (List.mem_of_getElem? hstate)
      refine hinside.set place (forall_mem_of_forall₂ hlost.nodes
        (fun node hnode => hold node (List.mem_of_mem_eraseIdx hnode)) ?_)
      rintro old new ⟨_, hfields⟩ hbefore key hkey
      rw [← hlost.nodes.length_eq]
      exact hfields.namesBelow hkey rfl (hbefore key hkey)
  | @within _ place _ state hstate =>
      exact hinside.set place (hinside.scopes state (List.mem_of_getElem? hstate))
  | between => exact ⟨hinside.start, hinside.scopes⟩

namespace Arena

variable {arena : Arena} {element : Element}

/-- Detaching a live element keeps every reference inside its list, through the renumbering. -/
theorem WellFormed.detach_referencesInside (h : arena.WellFormed)
    (hlive : arena.contains element = true) (hgraph : ∀ id, element ≠ .graph id)
    (hinside : arena.ReferencesInside) : (arena.detach element).renumber.ReferencesInside := by
  obtain ⟨_, _, hreach⟩ := h.reaches.detach element
  refine hreach.forall_renumber (fun graph hmem => ?_) fun graph name owner hgraph => ?_
  · obtain ⟨id, hid⟩ := List.mem_iff_getElem?.mp hmem
    rw [detach, modifyGraph_getElem?] at hid
    obtain ⟨original, horiginal, rfl⟩ := Option.map_eq_some_iff.mp hid
    have hold := hinside original (List.mem_of_getElem? horiginal)
    split
    next heq =>
      subst heq
      obtain ⟨found, hfound, hhas⟩ := contains_iff_has.mp hlive
      obtain rfl := Option.some.inj (horiginal.symm.trans hfound)
      exact (Subgraph.detach_loses hhas hgraph).referencesInside hold
    next => exact hold
  · refine ⟨by simpa [renameNested] using hgraph.start, fun state hstate node hnode => ?_⟩
    obtain ⟨state, hold, rfl⟩ := List.mem_map.mp hstate
    obtain ⟨node, hkept, rfl⟩ := List.mem_map.mp hnode
    simpa using hgraph.scopes state hold node hkept

theorem contains_of_erase {result : Arena} (herase : arena.erase element = .ok result) :
    arena.contains element = true := by
  cases erase_effect herase with
  | eraseGraph hrecord _ =>
      obtain ⟨graph, hgraph, _⟩ := Option.bind_eq_some_iff.mp hrecord
      exact contains_graph.mpr ⟨graph, hgraph⟩
  | eraseState hstate =>
      obtain ⟨graph, hgraph, hplace⟩ := state_eq_ok.mp hstate
      exact contains_state.mpr ⟨graph, _, hgraph, hplace⟩
  | eraseNode hnode =>
      obtain ⟨graph, state, hgraph, hstate, hindex⟩ := node_eq_ok.mp hnode
      exact contains_node.mpr
        ⟨graph, state, hgraph, hstate, (List.getElem?_eq_some_iff.mp hindex).1⟩
  | eraseWithin hstate hindex =>
      obtain ⟨graph, hgraph, hplace⟩ := state_eq_ok.mp hstate
      exact contains_within.mpr ⟨graph, _, hgraph, hplace, hindex⟩
  | eraseBetween hgraph hindex => exact contains_between.mpr ⟨_, hgraph, hindex⟩

/-! ## Erasing in general -/

/-- Every live element but the root can be erased, and nothing goes that does not have to. -/
structure ErasesExactly (arena : Arena) : Prop where
  element : ∀ element, arena.contains element = true → (∀ id, element ≠ .graph id) →
    ∃ result, arena.erase element = .ok result ∧ arena.Erased element result
  /-- Without an edge all graphs are as they were, but for one list of edges. -/
  edge : ∀ id place index, arena.contains (.edge id place index) = true → ∃ graph kept,
    arena.graphs[id]? = some graph ∧ graph.Loses (.edge id place index) kept ∧
      arena.erase (.edge id place index) = .ok ⟨arena.graphs.set id kept⟩
  /-- A graph is erased with the node that owns it. -/
  graph : ∀ id, 0 < id → id < arena.graphs.length → ∃ location, arena.Owns location id ∧
    arena.erase (.graph id) = arena.erase (.ofLocation location)
  root : arena.erase (.graph 0) = .error (.unsupportedElement .rootRemoval)
  references : ∀ element result, arena.erase element = .ok result →
    arena.ReferencesInside → result.ReferencesInside

namespace WellFormed

/-- Erasing an edge changes the edge list of one graph and renumbers nothing. -/
theorem erase_edge (h : arena.WellFormed) {id index : Nat} {place : Option Nat}
    (hlive : arena.contains (.edge id place index) = true) : ∃ graph kept,
      arena.graphs[id]? = some graph ∧ graph.Loses (.edge id place index) kept ∧
        arena.erase (.edge id place index) = .ok ⟨arena.graphs.set id kept⟩ := by
  obtain ⟨graph, hgraph, hhas⟩ := contains_iff_has.mp hlive
  refine ⟨graph, _, hgraph, Subgraph.detach_loses hhas (by simp), ?_⟩
  have hdetached : (arena.detach (.edge id place index)).WellFormed := by
    cases place with
    | none => exact h.eraseBetween id index
    | some place => exact h.eraseWithin id place index
  rw [h.erase_eq hlive (by simp), hdetached.renumber_eq, detach, Arena.modifyGraph,
    modify_eq_set hgraph]
  rfl

/-- Erasing an embedded graph is erasing the node that owns it. -/
theorem erase_owned (h : arena.WellFormed) {id : Nat} (hpos : 0 < id)
    (hid : id < arena.graphs.length) : ∃ location, arena.Owns location id ∧
      arena.erase (.graph id) = arena.erase (.ofLocation location) := by
  obtain ⟨location, hrecord, hunique⟩ := h.owned id hpos hid
  exact ⟨location, (hunique location).mpr rfl, h.erase_graph hrecord⟩

theorem erase_root (h : arena.WellFormed) :
    arena.erase (.graph 0) = .error (.unsupportedElement .rootRemoval) := by
  obtain ⟨root, hgraph, _⟩ := Option.map_eq_some_iff.mp h.root
  rw [Arena.erase, graph_eq_ok.mpr hgraph, ok_bind, h.recordedOwner_root]

/-- Erasing leaves every reference inside its list. -/
theorem erase_referencesInside (h : arena.WellFormed) {result : Arena}
    (herase : arena.erase element = .ok result) (hinside : arena.ReferencesInside) :
    result.ReferencesInside := by
  have hplain : ∀ {other : Element}, (∀ id, other ≠ .graph id) → arena.erase other = .ok result →
      result.ReferencesInside := by
    intro other hgraph herase
    have hlive := contains_of_erase herase
    obtain rfl := Except.ok.inj ((h.erase_eq hlive hgraph).symm.trans herase)
    exact h.detach_referencesInside hlive hgraph hinside
  cases element with
  | graph id =>
      rcases Nat.eq_zero_or_pos id with rfl | hpos
      · cases h.erase_root.symm.trans herase
      · obtain ⟨graph, hgraph⟩ := contains_graph.mp (contains_of_erase herase)
        obtain ⟨location, _, hsame⟩ := h.erase_owned hpos (List.getElem?_eq_some_iff.mp hgraph).1
        exact hplain (by simp [Element.ofLocation]) (hsame.symm.trans herase)
  | _ => exact hplain (by simp) herase

/-- On a well-formed arena, erasing does to each kind of element what the specification says. -/
theorem erasesExactly (h : arena.WellFormed) : arena.ErasesExactly where
  element := fun _ hlive hgraph => h.erased hlive hgraph
  edge := fun _ _ _ hlive => h.erase_edge hlive
  graph := fun _ hpos hid => h.erase_owned hpos hid
  root := h.erase_root
  references := fun _ _ herase hinside => h.erase_referencesInside herase hinside

end WellFormed

/-- After every run of edits an erasure changes what it has to and nothing else. -/
theorem reachable_erasesExactly {document : Json} (hdocument : ofJson document = .ok arena)
    (edits : List Edit) : (arena.afterEdits edits).ErasesExactly :=
  ((ofJson_wellFormed hdocument).afterEdits edits).erasesExactly

theorem nestedEdits_erasesExactly : ofJson nestedDocument = .ok nestedArena ∧
    (nestedArena.afterEdits nestedEdits).ErasesExactly :=
  ⟨ofJson_nestedDocument, reachable_erasesExactly ofJson_nestedDocument nestedEdits⟩

end Arena

end DataflowEditor
