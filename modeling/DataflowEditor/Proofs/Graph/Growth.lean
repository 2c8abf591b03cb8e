import DataflowEditor.Proofs.Graph.Additions
import DataflowEditor.Proofs.Graph.Detaching

/-! # Arenas that grow

An arena extends another when it has everything that the other has, as it was and where it was, and
apart from that only what is listed as new. A new graph takes its number among those that are there,
so the graphs from that number on count one higher. One graph grows at a time: it gets new elements
behind the ones it has, and the other graphs keep theirs.
-/

namespace DataflowEditor

/-- The element, with its graph under a new name. -/
def Element.renamed (name : Nat → Nat) : Element → Element
  | .graph id => .graph (name id)
  | .state id place => .state (name id) place
  | .node id place index => .node (name id) place index
  | .edge id place index => .edge (name id) place index

/-- The number of a graph after a new one has got the number `new`. -/
def numberWith (new id : Nat) : Nat :=
  if id < new then id else id + 1

/-- What a state has is there in another: its nodes and edges come first, its fields are kept. -/
structure State.Begins (old new : State) : Prop where
  nodes : old.nodes <+: new.nodes
  edges : old.edges <+: new.edges
  fields : new.fields = old.fields

/-- What a graph has is there in another: state by state, and its edges come first. -/
structure Subgraph.Begins (old new : Subgraph) : Prop where
  states : ∀ (place : Nat) (state : State), old.states[place]? = some state →
    ∃ grown, new.states[place]? = some grown ∧ state.Begins grown
  edges : old.edges <+: new.edges

/-- The graphs of an arena are there in another, under new names, with what they had. The fields of
at most one have changed. What is live is what was, and the new elements. -/
structure Arena.Extends (before after : Arena) (name : Nat → Nat) (filled : Option Nat)
    (new : List Element) : Prop where
  /-- In particular every graph has on record the node that owns it now. -/
  wellFormed : after.WellFormed
  kept : ∀ id graph, before.graphs[id]? = some graph → ∃ grown,
    after.graphs[name id]? = some grown ∧
      (Arena.renameNested (fun nested => some (name nested)) graph).Begins grown ∧
        (filled ≠ some id → grown.fields = graph.fields)
  live : ∀ element, after.contains element = true ↔
    element ∈ new ∨ ∃ old, before.contains old = true ∧ old.renamed name = element
  fresh : ∀ old, before.contains old = true → old.renamed name ∉ new

/-! ## Growing states and graphs -/

/-- A state that has grown by the new elements. -/
structure State.Grows (id place : Nat) (new : List Element) (old grown : State) : Prop where
  begins : old.Begins grown
  nodes : ∀ index, index < grown.nodes.length ↔
    index < old.nodes.length ∨ .node id place index ∈ new
  edges : ∀ index, index < grown.edges.length ↔
    index < old.edges.length ∨ .edge id (some place) index ∈ new
  fresh : ∀ element ∈ new, ∃ index, (element = .node id place index ∧ old.nodes.length ≤ index) ∨
    (element = .edge id (some place) index ∧ old.edges.length ≤ index)

/-- A graph that has grown by the new elements. -/
structure Subgraph.Grows (id : Nat) (new : List Element) (old grown : Subgraph) : Prop where
  begins : old.Begins grown
  has : ∀ element : Element, element.graphIndex = id →
    (grown.Has element ↔ old.Has element ∨ element ∈ new)
  fresh : ∀ element ∈ new, element.graphIndex = id ∧ ¬ old.Has element

variable {id place : Nat}

namespace State

variable {state : State}

theorem Begins.refl (state : State) : state.Begins state :=
  ⟨List.prefix_rfl, List.prefix_rfl, rfl⟩

theorem Begins.trans {first second third : State} (h : first.Begins second)
    (hnext : second.Begins third) : first.Begins third :=
  ⟨h.nodes.trans hnext.nodes, h.edges.trans hnext.edges, hnext.fields.trans h.fields⟩

theorem grows_pushNode (id place : Nat) (state : State) (node : Node) :
    state.Grows id place [.node id place state.nodes.length] (state.pushNode node) where
  begins := ⟨List.prefix_append _ _, List.prefix_rfl, rfl⟩
  nodes := fun index => by
    simp only [pushNode, List.length_append, List.length_singleton, List.mem_singleton,
      Element.node.injEq, true_and]
    omega
  edges := fun index => by simp [pushNode]
  fresh := fun element helement =>
    ⟨_, .inl ⟨List.mem_singleton.mp helement, Nat.le_refl _⟩⟩

theorem grows_pushEdge (id place : Nat) (state : State) (edge : Edge) :
    state.Grows id place [.edge id (some place) state.edges.length] (state.pushEdge edge) where
  begins := ⟨List.prefix_rfl, List.prefix_append _ _, rfl⟩
  nodes := fun index => by simp [pushEdge]
  edges := fun index => by
    simp only [pushEdge, List.length_append, List.length_singleton, List.mem_singleton,
      Element.edge.injEq, true_and]
    omega
  fresh := fun element helement =>
    ⟨_, .inr ⟨List.mem_singleton.mp helement, Nat.le_refl _⟩⟩

end State

namespace Subgraph

variable {graph : Subgraph} {new : List Element}

theorem Begins.trans {first second third : Subgraph} (h : first.Begins second)
    (hnext : second.Begins third) : first.Begins third where
  states := fun place state hstate => by
    obtain ⟨grown, hgrown, hbegins⟩ := h.states place state hstate
    obtain ⟨again, hagain, hbegins'⟩ := hnext.states place grown hgrown
    exact ⟨again, hagain, hbegins.trans hbegins'⟩
  edges := h.edges.trans hnext.edges

/-- Growing twice grows by the new elements of both. -/
theorem Grows.trans {first second third : Subgraph} {later : List Element}
    (h : first.Grows id new second) (hnext : second.Grows id later third) :
    first.Grows id (new ++ later) third where
  begins := h.begins.trans hnext.begins
  has := fun element helement => by
    rw [hnext.has element helement, h.has element helement, List.mem_append, or_assoc]
  fresh := fun element helement => by
    rcases List.mem_append.mp helement with hnew | hlater
    · exact h.fresh element hnew
    · obtain ⟨hid, hhas⟩ := hnext.fresh element hlater
      exact ⟨hid, fun hold => hhas ((h.has element hid).mpr (.inl hold))⟩

/-- New fields are no new elements. -/
theorem grows_fields (id : Nat) (graph : Subgraph) (fields : Fields) :
    graph.Grows id [] { graph with fields := fields } where
  begins := ⟨fun _ state hstate => ⟨state, hstate, .refl state⟩, List.prefix_rfl⟩
  has := fun element _ => by
    rw [or_iff_left List.not_mem_nil]
    cases element with
    | edge id place index => cases place <;> exact Iff.rfl
    | _ => exact Iff.rfl
  fresh := by simp

theorem grows_pushState (id : Nat) (graph : Subgraph) (fields : Fields) :
    graph.Grows id [.state id graph.states.length] (graph.pushState ⟨[], [], fields⟩) where
  begins := by
    refine ⟨fun place state hstate => ⟨state, ?_, .refl state⟩, List.prefix_rfl⟩
    rw [pushState, List.getElem?_append_left (List.getElem?_eq_some_iff.mp hstate).1, hstate]
  has := fun element helement => by
    -- The new state is empty, so nothing lies in it.
    have hinside : ∀ (place : Nat) (P : State → Prop), ¬ P ⟨[], [], fields⟩ →
        ((∃ state, (graph.pushState ⟨[], [], fields⟩).states[place]? = some state ∧ P state) ↔
          ∃ state, graph.states[place]? = some state ∧ P state) := by
      intro place P hempty
      rw [pushState, List.getElem?_append]
      split
      · exact Iff.rfl
      next hge =>
        rw [List.getElem?_eq_none (Nat.le_of_not_lt hge), List.getElem?_singleton]
        refine iff_of_false ?_ (by simp)
        rintro ⟨state, hstate, hstate'⟩
        split at hstate
        · cases hstate
          exact hempty hstate'
        · cases hstate
    cases element with
    | graph id => exact iff_of_true trivial (.inl trivial)
    | state id place =>
        cases helement
        simp only [Has, pushState, Element.graphIndex, List.length_append, List.length_singleton,
          List.mem_singleton, Element.state.injEq, true_and]
        omega
    | node id place index =>
        rw [or_iff_left (by simp)]
        exact hinside place _ (Nat.not_lt_zero _)
    | edge id place index =>
        rw [or_iff_left (by simp)]
        cases place with
        | none => exact Iff.rfl
        | some place => exact hinside place _ (Nat.not_lt_zero _)
  fresh := fun element helement => by
    obtain rfl := List.mem_singleton.mp helement
    exact ⟨rfl, Nat.lt_irrefl _⟩

theorem grows_pushEdge (id : Nat) (graph : Subgraph) (edge : Edge) :
    graph.Grows id [.edge id none graph.edges.length] (graph.pushEdge edge) where
  begins := ⟨fun _ state hstate => ⟨state, hstate, .refl state⟩, List.prefix_append _ _⟩
  has := fun element helement => by
    cases element with
    | graph id => exact iff_of_true trivial (.inl trivial)
    | state id place => exact (or_iff_left (by simp)).symm
    | node id place index => exact (or_iff_left (by simp)).symm
    | edge id place index =>
        cases place with
        | none =>
            cases helement
            simp only [Has, pushEdge, Element.graphIndex, List.length_append,
              List.length_singleton, List.mem_singleton, Element.edge.injEq, true_and]
            omega
        | some place => exact (or_iff_left (by simp)).symm
  fresh := fun element helement => by
    obtain rfl := List.mem_singleton.mp helement
    exact ⟨rfl, Nat.lt_irrefl _⟩

/-- In the state at a place something is added, in the others nothing. -/
theorem exists_modify_iff {state : State} (hstate : graph.states[place]? = some state)
    {change : State → State} {other : Nat} {P : State → Prop} {added : Prop}
    (hhere : place = other → (P (change state) ↔ P state ∨ added))
    (helsewhere : place ≠ other → ¬ added) :
    (∃ found, (graph.states.modify place change)[other]? = some found ∧ P found) ↔
      (∃ found, graph.states[other]? = some found ∧ P found) ∨ added := by
  by_cases hplace : place = other
  · subst hplace
    simpa [hstate] using hhere rfl
  · rw [or_iff_left (helsewhere hplace)]
    simp [hplace]

/-- A graph grows with one of its states. -/
theorem grows_modify {state : State} (hstate : graph.states[place]? = some state)
    (change : State → State) (h : state.Grows id place new (change state)) :
    graph.Grows id new { graph with states := graph.states.modify place change } where
  begins := by
    refine ⟨fun other found hfound => ?_, List.prefix_rfl⟩
    by_cases hplace : place = other
    · subst hplace
      obtain rfl := Option.some.inj (hstate.symm.trans hfound)
      exact ⟨change state, by simp [hstate], h.begins⟩
    · exact ⟨found, by simp [hplace, hfound], .refl found⟩
  has := fun element helement => by
    -- What is new lies within the state.
    have hwithin : element ∈ new → element.statePlace = some place ∧ element ≠ .state id place := by
      intro hmem
      obtain ⟨index, ⟨rfl, _⟩ | ⟨rfl, _⟩⟩ := h.fresh element hmem
      · exact ⟨rfl, nofun⟩
      · exact ⟨rfl, nofun⟩
    cases element with
    | graph id => exact iff_of_true trivial (.inl trivial)
    | state id other =>
        have hnone : .state id other ∉ new := fun hmem => by
          obtain ⟨hplace, hne⟩ := hwithin hmem
          cases helement
          cases hplace
          exact hne rfl
        rw [or_iff_left hnone]
        simp [Has]
    | node id other index =>
        cases helement
        exact exists_modify_iff hstate (fun hplace => hplace ▸ h.nodes index)
          fun hne hmem => hne (Option.some.inj (hwithin hmem).1).symm
    | edge id other index =>
        cases helement
        cases other with
        | none =>
            rw [or_iff_left fun hmem => by cases (hwithin hmem).1]
            exact Iff.rfl
        | some other =>
            exact exists_modify_iff hstate (fun hplace => hplace ▸ h.edges index)
              fun hne hmem => hne (Option.some.inj (hwithin hmem).1).symm
  fresh := fun element helement => by
    rcases h.fresh element helement with ⟨index, ⟨rfl, hindex⟩ | ⟨rfl, hindex⟩⟩
    · refine ⟨rfl, ?_⟩
      rintro ⟨found, hfound, hinside⟩
      obtain rfl := Option.some.inj (hstate.symm.trans hfound)
      exact Nat.not_lt.mpr hindex hinside
    · refine ⟨rfl, ?_⟩
      rintro ⟨found, hfound, hinside⟩
      obtain rfl := Option.some.inj (hstate.symm.trans hfound)
      exact Nat.not_lt.mpr hindex hinside

end Subgraph

/-! ## Elements under new names -/

namespace Element

variable {name : Nat → Nat} {element : Element}

theorem graphIndex_renamed (name : Nat → Nat) (element : Element) :
    (element.renamed name).graphIndex = name element.graphIndex := by
  cases element <;> rfl

/-- Names that keep graphs apart keep their elements apart. -/
theorem renamed_injective {name : Nat → Nat}
    (apart : ∀ id other, name id = name other → id = other) {first second : Element}
    (h : first.renamed name = second.renamed name) : first = second := by
  cases first <;> cases second <;> grind [renamed]

/-- Only the graph is renamed. -/
theorem has_renamed {graph : Subgraph} : graph.Has (element.renamed name) ↔ graph.Has element := by
  cases element with
  | edge id place index => cases place <;> exact Iff.rfl
  | _ => exact Iff.rfl

/-- An element of a graph with a new name is one that has been renamed. -/
theorem exists_renamed (h : element.graphIndex = name id) :
    ∃ old : Element, old.graphIndex = id ∧ old.renamed name = element := by
  cases element with
  | graph _ => exact ⟨.graph id, rfl, congrArg _ h.symm⟩
  | state _ place => exact ⟨.state id place, rfl, congrArg (Element.state · place) h.symm⟩
  | node _ place index =>
      exact ⟨.node id place index, rfl, congrArg (Element.node · place index) h.symm⟩
  | edge _ place index =>
      exact ⟨.edge id place index, rfl, congrArg (Element.edge · place index) h.symm⟩

end Element

namespace Subgraph

variable {graph : Subgraph} {element : Element}

/-- Renaming the nested graphs leaves the elements of a graph where they are. -/
theorem has_renameNested {rename : Nat → Option Nat} :
    (Arena.renameNested rename graph).Has element ↔ graph.Has element := by
  cases element with
  | graph id => exact Iff.rfl
  | state id place => simp [Has, Arena.renameNested]
  | node id place index => simp [Has, Arena.renameNested]
  | edge id place index => cases place <;> simp [Has, Arena.renameNested]

/-- The owner on record is no element. -/
theorem has_owner (owner : Option Location) :
    Subgraph.Has { graph with owner := owner } element ↔ graph.Has element := by
  cases element with
  | edge id place index => cases place <;> exact Iff.rfl
  | _ => exact Iff.rfl

/-- A graph with neither states nor edges has itself as its only element. -/
theorem has_of_empty (hempty : graph.states = [] ∧ graph.edges = []) :
    graph.Has element ↔ element = .graph element.graphIndex := by
  cases element with
  | edge id place index => cases place <;> simp [Has, hempty]
  | _ => simp [Has, Element.graphIndex, hempty]

theorem Grows.withOwner {grown : Subgraph} {new : List Element} (h : graph.Grows id new grown)
    (owner : Option Location) : graph.Grows id new { grown with owner := owner } where
  begins := ⟨h.begins.states, h.begins.edges⟩
  has := fun element helement => (has_owner owner).trans (h.has element helement)
  fresh := h.fresh

end Subgraph

namespace Arena

variable {before after arena : Arena}

/-! ## Growing arenas -/

theorem contains_iff {element : Element} {graph : Subgraph}
    (h : arena.graphs[element.graphIndex]? = some graph) :
    arena.contains element = true ↔ graph.Has element := by
  simp [contains_iff_has, h]

theorem graphIndex_lt {element : Element} (h : arena.contains element = true) :
    element.graphIndex < arena.graphs.length := by
  obtain ⟨_, hgraph, _⟩ := contains_iff_has.mp h
  exact (List.getElem?_eq_some_iff.mp hgraph).1

section Extension

variable {name : Nat → Nat} {filled : Option Nat} {graph grown : Subgraph}
  {inner outer : List Element} {old element : Element}

/-- One graph of an arena has grown, and the others are there under their new names. -/
structure GrowsAt (before after : Arena) (name : Nat → Nat) (id : Nat) (inner : List Element)
    (graph grown : Subgraph) : Prop where
  injective : ∀ old < before.graphs.length, ∀ other < before.graphs.length,
    name old = name other → old = other
  found : before.graphs[id]? = some graph
  still : after.graphs[name id]? = some grown
  grows : (renameNested (fun nested => some (name nested)) graph).Grows (name id) inner grown
  others : ∀ old other, before.graphs[old]? = some other → old ≠ id → ∃ owner,
    after.graphs[name old]? =
      some { renameNested (fun nested => some (name nested)) other with owner := owner }

namespace GrowsAt

/-- Whatever grows inside a graph is the new name of an element of a former graph. -/
theorem exists_renamed (h : before.GrowsAt after name id inner graph grown)
    (hnew : element ∈ inner) : ∃ old : Element, old.graphIndex < before.graphs.length ∧
      old.renamed name = element := by
  obtain ⟨old, rfl, hrenamed⟩ := Element.exists_renamed (h.grows.fresh element hnew).1
  exact ⟨old, (List.getElem?_eq_some_iff.mp h.found).1, hrenamed⟩

/-- What is live in the graphs that were there. -/
theorem contains (h : before.GrowsAt after name id inner graph grown)
    (hold : old.graphIndex < before.graphs.length) : after.contains (old.renamed name) = true ↔
      old.renamed name ∈ inner ∨ before.contains old = true := by
  have hid := (List.getElem?_eq_some_iff.mp h.found).1
  by_cases hindex : old.graphIndex = id
  · have hgrown : after.graphs[(old.renamed name).graphIndex]? = some grown := by
      rw [Element.graphIndex_renamed, hindex, h.still]
    rw [contains_iff hgrown, contains_iff (hindex ▸ h.found),
      h.grows.has _ (by rw [Element.graphIndex_renamed, hindex]), Subgraph.has_renameNested,
      Element.has_renamed, or_comm]
  · obtain ⟨owner, hfound⟩ := h.others _ _ (List.getElem?_eq_getElem hold) hindex
    rw [← Element.graphIndex_renamed name] at hfound
    have hnone : old.renamed name ∉ inner := by
      intro hmem
      have hsame := (h.grows.fresh _ hmem).1
      rw [Element.graphIndex_renamed] at hsame
      exact hindex (h.injective _ hold _ hid hsame)
    rw [contains_iff hfound, contains_iff (List.getElem?_eq_getElem hold), or_iff_right hnone,
      Subgraph.has_owner, Subgraph.has_renameNested, Element.has_renamed]

/-- An arena in which one graph has grown extends the one before, if what lies in no graph of that
one is new. -/
theorem extension (h : before.GrowsAt after name id inner graph grown)
    (hformed : after.WellFormed) (hfields : filled ≠ some id → grown.fields = graph.fields)
    (houter : ∀ element : Element, (∀ old < before.graphs.length, element.graphIndex ≠ name old) →
      (after.contains element = true ↔ element ∈ outer))
    (hbeside : ∀ element ∈ outer, ∀ old < before.graphs.length, element.graphIndex ≠ name old) :
    before.Extends after name filled (inner ++ outer) where
  wellFormed := hformed
  kept := fun old other hother => by
    by_cases hid : old = id
    · subst hid
      obtain rfl := Option.some.inj (h.found.symm.trans hother)
      exact ⟨grown, h.still, h.grows.begins, hfields⟩
    · obtain ⟨owner, hfound⟩ := h.others old other hother hid
      exact ⟨_, hfound, ⟨fun _ state hstate => ⟨state, hstate, .refl state⟩, List.prefix_rfl⟩,
        fun _ => rfl⟩
  live := fun element => by
    refine ⟨fun hlive => ?_, ?_⟩
    -- Either the element is in a former graph under its new name, or in no former graph.
    · by_cases hnamed : ∃ old < before.graphs.length, element.graphIndex = name old
      · obtain ⟨index, hindex, hname⟩ := hnamed
        obtain ⟨old, rfl, rfl⟩ := Element.exists_renamed hname
        rcases (h.contains hindex).mp hlive with hnew | hold
        · exact .inl (List.mem_append_left _ hnew)
        · exact .inr ⟨old, hold, rfl⟩
      · have hunnamed : ∀ old < before.graphs.length, element.graphIndex ≠ name old :=
          fun old hold hsame => hnamed ⟨old, hold, hsame⟩
        exact .inl (List.mem_append_right _ ((houter element hunnamed).mp hlive))
    · rintro (hnew | ⟨old, hold, rfl⟩)
      · rcases List.mem_append.mp hnew with hinner | hmem
        · obtain ⟨old, hindex, rfl⟩ := h.exists_renamed hinner
          exact (h.contains hindex).mpr (.inl hinner)
        · exact (houter element (hbeside element hmem)).mpr hmem
      · exact (h.contains (graphIndex_lt hold)).mpr (.inr hold)
  fresh := fun old hold hmem => by
    have hindex := graphIndex_lt hold
    rcases List.mem_append.mp hmem with hinner | hmem
    · obtain ⟨hsame, hhas⟩ := h.grows.fresh _ hinner
      rw [Element.graphIndex_renamed] at hsame
      obtain rfl := h.injective _ hindex _ (List.getElem?_eq_some_iff.mp h.found).1 hsame
      rw [Subgraph.has_renameNested, Element.has_renamed] at hhas
      exact hhas ((contains_iff h.found).mp hold)
    · exact hbeside _ hmem _ hindex (Element.graphIndex_renamed name old)

end GrowsAt

/-- If no graph comes in or is renamed, there are new elements in one graph only. -/
theorem extends_modifyGraph {change : Subgraph → Subgraph} {new : List Element}
    (hformed : (arena.modifyGraph id change).WellFormed) (hgraph : arena.graphs[id]? = some graph)
    (hgrows : graph.Grows id new (change graph))
    (hfields : filled ≠ some id → (change graph).fields = graph.fields) :
    arena.Extends (arena.modifyGraph id change) (fun id => id) filled new := by
  have hgrown : arena.GrowsAt (arena.modifyGraph id change) (fun id => id) id new graph
      (change graph) := by
    refine ⟨fun _ _ _ _ hsame => hsame, hgraph, graph_modifyGraph hgraph change, ?_, ?_⟩
    · rwa [renameNested_some]
    · intro old other hother hne
      rw [modifyGraph_getElem?, hother, if_neg (Ne.symm hne), renameNested_some]
      exact ⟨other.owner, rfl⟩
  rw [← List.append_nil new]
  refine hgrown.extension hformed hfields (fun element hunnamed => ?_) (by simp)
  refine iff_of_false (fun hlive => ?_) List.not_mem_nil
  have hlt := graphIndex_lt hlive
  rw [modifyGraph, List.length_modify] at hlt
  exact hunnamed _ hlt rfl

end Extension

/-! ## A new graph -/

/-- The numbers below `count` in order, with `count` put in among them. -/
theorem eq_range_append {met : List Nat} {count : Nat}
    (hperm : met.Perm (List.range (count + 1))) (hsub : (List.range count).Sublist met) :
    ∃ new ≤ count, met = List.range new ++ count :: List.range' new (count - new) := by
  have hnodup := hperm.nodup_iff.mpr List.nodup_range
  obtain ⟨front, back, rfl⟩ :=
    List.append_of_mem (hperm.mem_iff.mpr (List.mem_range.mpr count.lt_succ_self))
  -- Without the last number, only those below it are left.
  have hfront : count ∉ front := fun hmem =>
    (List.nodup_append.mp hnodup).2.2 count hmem count List.mem_cons_self rfl
  have hothers := hsub.erase count
  rw [List.erase_of_not_mem (by simp), List.erase_append_right _ hfront,
    List.erase_cons_head] at hothers
  have hlength := hperm.length_eq
  have heq := hothers.eq_of_length (by
    simp only [List.length_append, List.length_cons, List.length_range] at hlength ⊢
    omega)
  rw [List.range_eq_range'] at heq
  obtain ⟨new, hnew, rfl, rfl⟩ := List.range'_eq_append_iff.mp heq
  exact ⟨new, hnew, by simp [List.range_eq_range']⟩

/-- Where the new graph is met at a place, the others stand as if room had been made there. -/
theorem idxOf_with {new count id : Nat} (hnew : new ≤ count) (hid : id < count) :
    (List.range new ++ count :: List.range' new (count - new)).idxOf id = numberWith new id := by
  rw [List.idxOf_append, numberWith]
  simp only [List.mem_range]
  split
  next hlt => exact idxOf_range hlt
  next hge =>
    have hplace : id - new < (List.range' new (count - new)).length := by
      rw [List.length_range']
      omega
    have hnodup : (List.range' new (count - new)).Nodup := List.nodup_range'
    have hindex := hnodup.idxOf_getElem (id - new) hplace
    rw [List.getElem_range', Nat.one_mul, Nat.add_sub_cancel' (Nat.le_of_not_lt hge)] at hindex
    rw [List.idxOf_cons_ne _ hid.ne', hindex, List.length_range]
    omega

theorem idxOf_new {new count : Nat} (hnew : new ≤ count) :
    (List.range new ++ count :: List.range' new (count - new)).idxOf count = new := by
  rw [List.idxOf_append, if_neg (by simpa using hnew), List.idxOf_cons_self, List.length_range,
    Nat.zero_add]

/-- Making room for a new graph keeps the former graphs apart. -/
theorem numberWith_injective {new id other : Nat} (h : numberWith new id = numberWith new other) :
    id = other := by
  grind [numberWith]

theorem numberWith_ne (new id : Nat) : numberWith new id ≠ new := by
  grind [numberWith]

/-- Every number but the new one is that of a graph that was there. -/
theorem eq_of_ne_numberWith {new count id : Nat} (hnew : new ≤ count) (hid : id < count + 1)
    (h : ∀ old < count, id ≠ numberWith new old) : id = new := by
  rcases Nat.lt_trichotomy id new with hlt | rfl | hgt
  · exact absurd (if_pos hlt).symm (h id (by omega))
  · rfl
  · have hself : numberWith new (id - 1) = id := by
      rw [numberWith, if_neg (by omega)]
      omega
    exact absurd hself.symm (h (id - 1) (by omega))

/-- The new graph is met behind that of its owner, and the others in the order they were in. -/
theorem WellFormed.reaches_pushNested (h : arena.WellFormed) {state : State}
    (hstate : arena.state id place = .ok state) {location : Location} {inner : Fields}
    {nested : Subgraph} (fields : Fields)
    (hblock : Subgraph.decode arena.graphs.length (some location) inner = .ok [nested]) :
    ∃ new, id < new ∧ new ≤ arena.graphs.length ∧
      ((Arena.mk (arena.graphs ++ [nested])).modifyState id place
        (·.pushNode ⟨some arena.graphs.length, fields⟩)).Reaches
          (List.range new ++ arena.graphs.length ::
            List.range' new (arena.graphs.length - new)) := by
  obtain ⟨graph, hgraph, hplace⟩ := state_eq_ok.mp hstate
  have hid := (List.getElem?_eq_some_iff.mp hgraph).1
  obtain ⟨met, hperm, hreach, hnested⟩ := h.reaches_pushNode hstate fields hblock
  have hfewer : ∀ other, (arena.childrenAt other).Sublist
      (((Arena.mk (arena.graphs ++ [nested])).modifyState id place
        (·.pushNode ⟨some arena.graphs.length, fields⟩)).childrenAt other) := by
    intro other
    rw [modifyState_eq, childrenAt_modifyGraph, childrenAt]
    cases hother : arena.graphs[other]? with
    | none => exact List.nil_sublist _
    | some found =>
        rw [List.getElem?_append_left (List.getElem?_eq_some_iff.mp hother).1, hother]
        by_cases hsame : id = other
        · subst hsame
          obtain rfl := Option.some.inj (hgraph.symm.trans hother)
          obtain ⟨front, back, hold, hmore⟩ := children_pushNode hplace arena.graphs.length fields
          simp only [Option.elim_some, if_true]
          rw [hold, hmore]
          exact (List.sublist_cons_self _ _).append_left front
        · simp [hsame]
  -- Without the new child the walk is the old one, so the new graph is all that is put into it.
  obtain ⟨kept, hkept, hwalk⟩ := hreach.walk.sublist hfewer (List.Sublist.refl _)
  obtain rfl := hwalk.unique h.preorder
  obtain ⟨new, hnew, rfl⟩ := eq_range_append hperm hkept
  obtain ⟨_, hindex⟩ := h.idxOf_pushNode hgraph hreach (Nat.le_refl id)
  refine ⟨new, ?_, hnew, hreach⟩
  rw [idxOf_with hnew hid] at hindex
  grind [numberWith]

/-- A node with an empty graph of its own has been put behind the nodes of a state. The graphs that
were there keep their order, and the new one is put in behind that of its owner. -/
structure NestsAt (before after : Arena) (id place new : Nat) (fields : Fields)
    (nested : Subgraph) : Prop where
  behind : id < new
  inside : new ≤ before.graphs.length
  count : after.graphs.length = before.graphs.length + 1
  added : ∃ owner, after.graphs[new]? = some { nested with owner := owner }
  owning : ∀ graph, before.graphs[id]? = some graph → ∃ owner, after.graphs[id]? = some
    { renameNested (fun nested => some (numberWith new nested)) graph with
      states := (renameNested (fun nested => some (numberWith new nested)) graph).states.modify
        place (·.pushNode ⟨some new, fields⟩),
      owner := owner }
  others : ∀ old graph, before.graphs[old]? = some graph → old ≠ id → ∃ owner,
    after.graphs[numberWith new old]? =
      some { renameNested (fun nested => some (numberWith new nested)) graph with owner := owner }

/-- The graphs get their numbers: those that were there keep their order, and the new one is put in
behind that of its owner. -/
theorem WellFormed.renamed_pushNested (h : arena.WellFormed) {state : State}
    (hstate : arena.state id place = .ok state) {location : Location} {inner : Fields}
    {nested : Subgraph} (fields : Fields)
    (hblock : Subgraph.decode arena.graphs.length (some location) inner = .ok [nested])
    {grown : Arena} (hgrown : grown = (Arena.mk (arena.graphs ++ [nested])).modifyState id place
      (·.pushNode ⟨some arena.graphs.length, fields⟩)) :
    ∃ (new : Nat) (name : Nat → Nat), id < new ∧ new ≤ arena.graphs.length ∧
      (∀ other < arena.graphs.length, name other = numberWith new other) ∧
      name arena.graphs.length = new ∧
      Renamed (List.range (arena.graphs.length + 1)) name grown grown.renumber ∧
      grown.renumber.graphs.length = arena.graphs.length + 1 := by
  obtain ⟨new, hlt, hnew, hreach⟩ := h.reaches_pushNested hstate fields hblock
  rw [← hgrown] at hreach
  have hrange : ∀ other < arena.graphs.length + 1, other ∈ List.range new ++
      arena.graphs.length :: List.range' new (arena.graphs.length - new) := by
    intro other hother
    rw [List.mem_append, List.mem_cons, List.mem_range, List.mem_range'_1]
    omega
  refine ⟨new, _, hlt, hnew, fun other hother => idxOf_with hnew hother, idxOf_new hnew,
    fun other hother => hreach.renumber_renamed other (hrange other (List.mem_range.mp hother)), ?_⟩
  rw [hreach.renumber_length, List.length_append, List.length_cons, List.length_range,
    List.length_range']
  omega

theorem renameNested_pushNode (rename : Nat → Option Nat) (graph : Subgraph) (place nested : Nat)
    (fields : Fields) : renameNested rename
        { graph with states := graph.states.modify place (·.pushNode ⟨some nested, fields⟩) } =
      { renameNested rename graph with
        states := (renameNested rename graph).states.modify place
          (·.pushNode ⟨rename nested, fields⟩) } := by
  rw [renameNested, renameNested, Subgraph.mk.injEq]
  refine ⟨List.ext_getElem? fun other => ?_, rfl, rfl, rfl⟩
  simp only [List.getElem?_map, List.getElem?_modify]
  cases graph.states[other]? with
  | none => rfl
  | some state => by_cases hplace : place = other <;> simp [hplace, State.pushNode]

/-- Pushing a node with an empty graph nests that graph at some index, the former graphs making room
for it. -/
theorem WellFormed.nestsAt_pushNested (h : arena.WellFormed) {state : State}
    (hstate : arena.state id place = .ok state) {location : Location} {inner : Fields}
    {nested : Subgraph} (fields : Fields)
    (hblock : Subgraph.decode arena.graphs.length (some location) inner = .ok [nested])
    (hempty : nested.states = []) :
    ∃ new, arena.NestsAt ((Arena.mk (arena.graphs ++ [nested])).modifyState id place
      (·.pushNode ⟨some arena.graphs.length, fields⟩)).renumber id place new fields nested := by
  obtain ⟨new, name, hlt, hnew, hold, hlast, hrenamed, hlength⟩ :=
    h.renamed_pushNested hstate fields hblock rfl
  have hnested : ∀ (other : Nat) (graph : Subgraph), arena.graphs[other]? = some graph →
      renameNested (fun nested => some (name nested)) graph =
        renameNested (fun nested => some (numberWith new nested)) graph :=
    fun other graph hgraph =>
      h.renameNested_eq (fun child hchild => congrArg some (hold child hchild)) hgraph
  -- Before renumbering only the graph of the new node has changed, and the new one comes last.
  have hgrown : ∀ other graph, (arena.graphs ++ [nested])[other]? = some graph →
      ∃ owner, ((Arena.mk (arena.graphs ++ [nested])).modifyState id place
        (·.pushNode ⟨some arena.graphs.length, fields⟩)).renumber.graphs[name other]? =
          some { renameNested (fun nested => some (name nested)) (if id = other then { graph with
            states := graph.states.modify place (·.pushNode ⟨some arena.graphs.length, fields⟩) }
              else graph) with owner := owner } := by
    intro other graph hgraph
    refine hrenamed other ?_ _ ?_
    · simpa using (List.getElem?_eq_some_iff.mp hgraph).1
    · rw [modifyState_eq, modifyGraph_getElem?, hgraph, Option.map_some]
      split <;> rfl
  have hinside : ∀ (other : Nat) (graph : Subgraph), arena.graphs[other]? = some graph →
      other < arena.graphs.length ∧ (arena.graphs ++ [nested])[other]? = some graph := by
    intro other graph hgraph
    have hother := (List.getElem?_eq_some_iff.mp hgraph).1
    exact ⟨hother, by rw [List.getElem?_append_left hother, hgraph]⟩
  refine ⟨new, hlt, hnew, hlength, ?_, fun graph hgraph => ?_, fun old graph hgraph hne => ?_⟩
  · obtain ⟨owner, hfound⟩ := hgrown arena.graphs.length nested List.getElem?_concat_length
    have hsame : renameNested (fun nested => some (name nested)) nested = nested := by
      cases nested
      cases hempty
      rfl
    rw [if_neg (by omega), hlast, hsame] at hfound
    exact ⟨owner, hfound⟩
  · obtain ⟨hother, hagain⟩ := hinside id graph hgraph
    obtain ⟨owner, hfound⟩ := hgrown id graph hagain
    rw [if_pos rfl, renameNested_pushNode, hlast, hnested id graph hgraph, hold id hother,
      numberWith, if_pos hlt] at hfound
    exact ⟨owner, hfound⟩
  · obtain ⟨hother, hagain⟩ := hinside old graph hgraph
    obtain ⟨owner, hfound⟩ := hgrown old graph hagain
    rw [if_neg (Ne.symm hne), hnested old graph hgraph, hold old hother] at hfound
    exact ⟨owner, hfound⟩

namespace NestsAt

variable {new : Nat} {fields : Fields} {nested : Subgraph}
  (h : before.NestsAt after id place new fields nested)

include h

/-- The pushed node is found at the end of its state and owns the new graph. -/
theorem owner_node {graph : Subgraph} {state : State} (hgraph : before.graphs[id]? = some graph)
    (hplace : graph.states[place]? = some state) :
    after.node ⟨id, place, state.nodes.length⟩ = .ok ⟨some new, fields⟩ := by
  obtain ⟨owner, hgrown⟩ := h.owning graph hgraph
  refine node_eq_ok.mpr ?_
  simp [hgrown, renameNested, hplace, State.pushNode]

theorem growsAt {graph : Subgraph} {state : State} (hgraph : before.graphs[id]? = some graph)
    (hplace : graph.states[place]? = some state) : ∃ grown,
      before.GrowsAt after (numberWith new) id [.node id place state.nodes.length] graph grown ∧
        grown.fields = graph.fields := by
  have hself : numberWith new id = id := if_pos h.behind
  obtain ⟨owner, hgrown⟩ := h.owning graph hgraph
  have hrenamed : (renameNested (fun nested => some (numberWith new nested)) graph).states[place]? =
      some { state with nodes := state.nodes.map fun node =>
        { node with nested := node.nested.bind fun nested => some (numberWith new nested) } } := by
    rw [renameNested, List.getElem?_map, hplace, Option.map_some]
  have hgrows := Subgraph.grows_modify hrenamed (·.pushNode ⟨some new, fields⟩)
    (State.grows_pushNode id place _ _)
  rw [List.length_map] at hgrows
  rw [← hself] at hgrown
  refine ⟨_, ⟨fun _ _ _ _ => numberWith_injective, hgraph, hgrown, ?_, h.others⟩, rfl⟩
  rw [hself]
  exact hgrows.withOwner owner

/-- Whatever lies in no graph that was there is the new graph. -/
theorem contains_iff_new (hempty : nested.states = [] ∧ nested.edges = []) {element : Element}
    (hunnamed : ∀ old < before.graphs.length, element.graphIndex ≠ numberWith new old) :
    after.contains element = true ↔ element ∈ [.graph new] := by
  obtain ⟨owner, hadded⟩ := h.added
  rw [List.mem_singleton]
  refine ⟨fun hlive => ?_, ?_⟩
  · have hinside := graphIndex_lt hlive
    rw [h.count] at hinside
    have hindex := eq_of_ne_numberWith h.inside hinside hunnamed
    obtain ⟨found, hfound, hhas⟩ := contains_iff_has.mp hlive
    rw [hindex, hadded] at hfound
    obtain rfl := Option.some.inj hfound
    rwa [Subgraph.has_owner, Subgraph.has_of_empty hempty, hindex] at hhas
  · rintro rfl
    exact contains_graph.mpr ⟨_, hadded⟩

end NestsAt

/-- A node with an empty graph of its own is added, and nothing else. -/
theorem WellFormed.extends_pushNested (h : arena.WellFormed) {state : State}
    (hstate : arena.state id place = .ok state) {location : Location} {inner : Fields}
    {nested : Subgraph} (fields : Fields)
    (hblock : Subgraph.decode arena.graphs.length (some location) inner = .ok [nested])
    (hempty : nested.states = [] ∧ nested.edges = []) {result : Arena}
    (hresult : result = ((Arena.mk (arena.graphs ++ [nested])).modifyState id place
      (·.pushNode ⟨some arena.graphs.length, fields⟩)).renumber) :
    ∃ new, id < new ∧ new ≤ arena.graphs.length ∧
      result.node ⟨id, place, state.nodes.length⟩ = .ok ⟨some new, fields⟩ ∧
      (∃ owner, result.graphs[new]? = some { nested with owner := owner }) ∧
      arena.Extends result (numberWith new) none
        [.node id place state.nodes.length, .graph new] := by
  obtain ⟨graph, hgraph, hplace⟩ := state_eq_ok.mp hstate
  obtain ⟨new, hnests⟩ := h.nestsAt_pushNested hstate fields hblock hempty.1
  have hformed := h.pushNestedNode hstate fields hblock
  rw [← hresult] at hnests hformed
  obtain ⟨grown, hgrows, hfields⟩ := hnests.growsAt hgraph hplace
  refine ⟨new, hnests.behind, hnests.inside, hnests.owner_node hgraph hplace, hnests.added,
    hgrows.extension hformed (fun _ => hfields) (fun element => hnests.contains_iff_new hempty) ?_⟩
  intro element helement old _
  obtain rfl := List.mem_singleton.mp helement
  exact (numberWith_ne new old).symm

end Arena

end DataflowEditor
