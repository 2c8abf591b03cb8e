import DataflowEditor.Proofs.Graph.Addressing

/-! # Locating any four integers

Locating takes any four signed words, whether a text could give them or not. The components are
looked at in the order of graph, state, node and edge, the edge only where no node is set, and the
first that names nothing decides the failure. Minus one stands for unset. A component below it
counts as an index beyond every list, so that it never leads to an element.
-/

namespace DataflowEditor

/-! ## Components -/

/-- The component is an index into a list of that length. -/
def IsIndex (component : Int) (count : Nat) : Prop :=
  0 ≤ component ∧ component < count

/-- The component is the index of this item. -/
def PointsTo {α : Type} (component : Int) (items : List α) (item : α) : Prop :=
  0 ≤ component ∧ items[component.toNat]? = some item

section Components

variable {α : Type} {component : Int} {items : List α} {item : α} {count : Nat}

/-- A component is an index of a list exactly when it points to an item. -/
theorem isIndex_iff_pointsTo :
    IsIndex component items.length ↔ ∃ item, PointsTo component items item := by
  simp only [IsIndex, PointsTo, exists_and_left]
  refine and_congr_right fun hlow => ?_
  rw [← Option.isSome_iff_exists, isSome_getElem?]
  omega

theorem PointsTo.isIndex (h : PointsTo component items item) : IsIndex component items.length :=
  isIndex_iff_pointsTo.mpr ⟨item, h⟩

theorem PointsTo.ne_unset (h : PointsTo component items item) : component ≠ -1 := by
  have hlow := h.1
  omega

theorem IsIndex.ne_unset (h : IsIndex component count) : component ≠ -1 := by
  have hlow := h.1
  omega

theorem IsIndex.toNat_lt (h : IsIndex component count) : component.toNat < count := by
  obtain ⟨hlow, hhigh⟩ := h
  omega

/-- Read as an unsigned word, an index is itself. -/
theorem IsIndex.unsignedWord_eq (h : IsIndex component count) (hword : IsSignedWord component) :
    unsignedWord component = component.toNat := by
  obtain ⟨place, rfl⟩ := Int.eq_ofNat_of_zero_le h.1
  exact unsignedWord_natCast (Int.ofNat_lt.mp hword.2)

/-- A negative word becomes an index that no list has. -/
theorem unsignedWord_lt_iff (hword : IsSignedWord component) (hcount : count < halfWordCount) :
    unsignedWord component < count ↔ IsIndex component count := by
  obtain ⟨hlow, hhigh⟩ := hword
  simp only [halfWordCount] at hlow hhigh hcount
  simp only [unsignedWord, wordCount, IsIndex]
  omega

/-- Hence the word arithmetic of the lookup picks the item that the component points to. -/
theorem PointsTo.unsignedWord_getElem? (h : PointsTo component items item)
    (hword : IsSignedWord component) : items[unsignedWord component]? = some item := by
  rw [h.isIndex.unsignedWord_eq hword]
  exact h.2

end Components

/-! ## What is asked of an address -/

/-- Each component that is looked at inside the graph is unset or an index. -/
structure Subgraph.Covers (graph : Subgraph) (address : Address) : Prop where
  state : address.state = -1 ∨ IsIndex address.state graph.states.length
  node : address.node = -1 ∨ ∃ state, PointsTo address.state graph.states state ∧
    IsIndex address.node state.nodes.length
  /-- An edge is one of the state that is set, or one between states. -/
  edge : address.node = -1 → address.edge = -1 ∨
    (address.state = -1 ∧ IsIndex address.edge graph.edges.length) ∨
      ∃ state, PointsTo address.state graph.states state ∧
        IsIndex address.edge state.edges.length

namespace Arena

variable {arena : Arena} {address : Address}

/-- Every component of the address that is looked at names something. -/
def Covers (arena : Arena) (address : Address) : Prop :=
  ∃ graph, PointsTo address.graph arena.graphs graph ∧ graph.Covers address

/-- The first component of the address that names nothing, as the failure that reports it. -/
inductive Offends (arena : Arena) (address : Address) : GraphError → Prop
  | graph : ¬ IsIndex address.graph arena.graphs.length →
      Offends arena address (.graphNotFound address.graph)
  | state {graph : Subgraph} : PointsTo address.graph arena.graphs graph → address.state ≠ -1 →
      ¬ IsIndex address.state graph.states.length →
      Offends arena address (.stateOutOfRange address.graph.toNat address.state)
  | stateless {graph : Subgraph} : PointsTo address.graph arena.graphs graph →
      address.state = -1 → address.node ≠ -1 →
      Offends arena address (.malformedAddress address.toText .nodeWithoutState)
  | node {graph : Subgraph} {state : State} : PointsTo address.graph arena.graphs graph →
      PointsTo address.state graph.states state → address.node ≠ -1 →
      ¬ IsIndex address.node state.nodes.length →
      Offends arena address
        (.nodeOutOfRange address.graph.toNat address.state.toNat address.node)
  | within {graph : Subgraph} {state : State} : PointsTo address.graph arena.graphs graph →
      PointsTo address.state graph.states state → address.node = -1 → address.edge ≠ -1 →
      ¬ IsIndex address.edge state.edges.length →
      Offends arena address
        (.edgeOutOfRange (.state address.graph.toNat address.state.toNat) address.edge)
  | between {graph : Subgraph} : PointsTo address.graph arena.graphs graph →
      address.state = -1 → address.node = -1 → address.edge ≠ -1 →
      ¬ IsIndex address.edge graph.edges.length →
      Offends arena address (.edgeOutOfRange (.graph address.graph.toNat) address.edge)

/-- Nothing else can keep an address from being located. -/
theorem covers_or_offends (arena : Arena) (address : Address) :
    arena.Covers address ∨ ∃ error, arena.Offends address error := by
  by_cases hgraph : IsIndex address.graph arena.graphs.length
  case neg => exact .inr ⟨_, .graph hgraph⟩
  obtain ⟨graph, hgraph⟩ := isIndex_iff_pointsTo.mp hgraph
  by_cases hunset : address.state = -1
  · by_cases hnode : address.node = -1
    · by_cases hedge : address.edge = -1 ∨ IsIndex address.edge graph.edges.length
      · exact .inl ⟨graph, hgraph, .inl hunset, .inl hnode, fun _ =>
          hedge.imp_right fun hindex => .inl ⟨hunset, hindex⟩⟩
      · obtain ⟨hset, hbeyond⟩ := not_or.mp hedge
        exact .inr ⟨_, .between hgraph hunset hnode hset hbeyond⟩
    · exact .inr ⟨_, .stateless hgraph hunset hnode⟩
  · by_cases hstate : IsIndex address.state graph.states.length
    case neg => exact .inr ⟨_, .state hgraph hunset hstate⟩
    obtain ⟨state, hfound⟩ := isIndex_iff_pointsTo.mp hstate
    by_cases hnode : address.node = -1
    · by_cases hedge : address.edge = -1 ∨ IsIndex address.edge state.edges.length
      · exact .inl ⟨graph, hgraph, .inr hstate, .inl hnode, fun _ =>
          hedge.imp_right fun hindex => .inr ⟨state, hfound, hindex⟩⟩
      · obtain ⟨hset, hbeyond⟩ := not_or.mp hedge
        exact .inr ⟨_, .within hgraph hfound hnode hset hbeyond⟩
    · by_cases hindex : IsIndex address.node state.nodes.length
      · exact .inl ⟨graph, hgraph, .inr hstate, .inr ⟨state, hfound, hindex⟩, fun h =>
          absurd h hnode⟩
      · exact .inr ⟨_, .node hgraph hfound hnode hindex⟩

/-! ## What comes of it -/

section Outcome

variable {id : Nat} {graph : Subgraph} {state : State}

theorem locateState_pointsTo (hword : IsSignedWord address.state)
    (h : PointsTo address.state graph.states state) :
    locateState address id graph = .ok (some (address.state.toNat, state)) := by
  rw [locateState, if_neg h.ne_unset, h.unsignedWord_getElem? hword,
    h.isIndex.unsignedWord_eq hword]

/-- A component that is set and points nowhere is out of range, whatever its sign. -/
theorem locateState_outside (hword : IsSignedWord address.state)
    (hcount : graph.states.length < halfWordCount) (hset : address.state ≠ -1)
    (h : ¬ IsIndex address.state graph.states.length) :
    locateState address id graph = .error (.stateOutOfRange id address.state) := by
  have hbeyond : graph.states.length ≤ unsignedWord address.state :=
    Nat.le_of_not_lt fun hlt => h ((unsignedWord_lt_iff hword hcount).mp hlt)
  rw [locateState, if_neg hset, List.getElem?_eq_none hbeyond]

/-- An address whose graph exists is looked up inside that graph. -/
theorem WellFormed.locate_pointsTo (h : arena.WellFormed) (hword : IsSignedWord address.graph)
    (hgraph : PointsTo address.graph arena.graphs graph) :
    arena.locate address = locateInside address address.graph.toNat graph
      (arena.recordedOwner address.graph.toNat) := by
  have hinside := (List.getElem?_eq_some_iff.mp hgraph.2).1
  rw [locate, if_neg (Int.not_lt.mpr hgraph.1), hgraph.isIndex.unsignedWord_eq hword,
    h.ownerOf_eq hinside, graph_eq_ok.mpr hgraph.2]
  rfl

/-- An address whose graph does not exist is refused with the number it gave. -/
theorem WellFormed.locate_outside (h : arena.WellFormed) (hword : IsSignedWord address.graph)
    (hgraph : ¬ IsIndex address.graph arena.graphs.length) :
    arena.locate address = .error (.graphNotFound address.graph) := by
  by_cases hneg : address.graph < 0
  · rw [locate, if_pos hneg]
  · obtain ⟨id, hid⟩ := Int.eq_ofNat_of_zero_le (Int.not_lt.mp hneg)
    have hfits : id < halfWordCount := Int.ofNat_lt.mp (hid ▸ hword.2)
    have hbeyond : arena.graphs.length ≤ id :=
      Nat.le_of_not_lt fun hlt => hgraph ⟨by omega, by omega⟩
    rw [locate, if_neg hneg, hid, unsignedWord_natCast hfits, h.ownerOf_eq_error hbeyond,
      signedWord_of_lt hfits, error_bind]

/-- The first component that names nothing is what locating fails with. -/
theorem WellFormed.locate_of_offends (h : arena.WellFormed)
    (hcounts : arena.CountsBelow halfWordCount) (hsigned : address.IsSigned) {error : GraphError}
    (hoffends : arena.Offends address error) : arena.locate address = .error error := by
  obtain ⟨hgraph, hstate, hnode, hedge⟩ := hsigned
  cases hoffends with
  | graph hbeyond => exact h.locate_outside hgraph hbeyond
  | state hfound hset hbeyond =>
      obtain ⟨hstates, _, _⟩ := hcounts.2 _ (List.mem_of_getElem? hfound.2)
      rw [h.locate_pointsTo hgraph hfound, locateInside,
        locateState_outside hstate hstates hset hbeyond, error_bind]
  | stateless hfound hunset hset =>
      rw [h.locate_pointsTo hgraph hfound, locateInside, locateState, if_pos hunset, ok_bind,
        if_pos hset]
  | node hfound hplace hset hbeyond =>
      obtain ⟨_, _, hwithin⟩ := hcounts.2 _ (List.mem_of_getElem? hfound.2)
      have hcount := (hwithin _ (List.mem_of_getElem? hplace.2)).1
      rw [h.locate_pointsTo hgraph hfound, locateInside, locateState_pointsTo hstate hplace,
        ok_bind, if_pos hset]
      exact if_neg fun hlt => hbeyond ((unsignedWord_lt_iff hnode hcount).mp hlt)
  | within hfound hplace hunset hset hbeyond =>
      obtain ⟨_, _, hwithin⟩ := hcounts.2 _ (List.mem_of_getElem? hfound.2)
      have hcount := (hwithin _ (List.mem_of_getElem? hplace.2)).2
      rw [h.locate_pointsTo hgraph hfound, locateInside, locateState_pointsTo hstate hplace,
        ok_bind, if_neg (not_not.mpr hunset), if_pos hset]
      exact if_neg fun hlt => hbeyond ((unsignedWord_lt_iff hedge hcount).mp hlt)
  | between hfound hstateless hunset hset hbeyond =>
      obtain ⟨_, hcount, _⟩ := hcounts.2 _ (List.mem_of_getElem? hfound.2)
      rw [h.locate_pointsTo hgraph hfound, locateInside, locateState, if_pos hstateless, ok_bind,
        if_neg (not_not.mpr hunset), if_pos hset]
      exact if_neg fun hlt => hbeyond ((unsignedWord_lt_iff hedge hcount).mp hlt)

/-- Where every component names something, the set ones tell the element. -/
theorem WellFormed.locate_of_covers (h : arena.WellFormed) (hsigned : address.IsSigned)
    (hcovers : arena.Covers address) :
    arena.locate address = .ok ⟨.ofAddress address, arena.holder? (.ofAddress address)⟩ ∧
      arena.contains (.ofAddress address) = true := by
  obtain ⟨hgraph, hstate, hnode, hedge⟩ := hsigned
  obtain ⟨graph, hfound, hplaces, hnodes, hedges⟩ := hcovers
  rw [h.locate_pointsTo hgraph hfound, locateInside, Element.ofAddress]
  by_cases hunset : address.node = -1
  · rcases hedges hunset with hnone | ⟨hstateless, hindex⟩ | ⟨state, hplace, hindex⟩
    · rcases hplaces with hstateless | hinside
      · simp [locateState, hunset, hnone, hstateless, holder?, pure, Except.pure, contains_graph,
          hfound.2]
      · obtain ⟨state, hplace⟩ := isIndex_iff_pointsTo.mp hinside
        simp [locateState_pointsTo hstate hplace, hunset, hnone, hplace.ne_unset, holder?, pure,
          Except.pure, contains_state, hfound.2, hplace.2]
    · simp [locateState, hunset, hstateless, hindex.ne_unset, hindex.unsignedWord_eq hedge,
        hindex.toNat_lt, holder?, pure, Except.pure, contains_between, hfound.2]
    · simp [locateState_pointsTo hstate hplace, hunset, hplace.ne_unset, hindex.ne_unset,
        hindex.unsignedWord_eq hedge, hindex.toNat_lt, holder?, pure, Except.pure, contains_within,
        hfound.2, hplace.2]
  · obtain ⟨state, hplace, hindex⟩ := hnodes.resolve_left hunset
    simp [locateState_pointsTo hstate hplace, hunset, hindex.unsignedWord_eq hnode,
      hindex.toNat_lt, holder?, pure, Except.pure, contains_node, hfound.2, hplace.2]

end Outcome

/-! ## Locating by index -/

/-- Pick the element inside a graph by indices. A state that an earlier step has looked at is taken
from its list again, and nothing comes of it where its index leaves the list. -/
def pickByIndex (address : Address) (id : Nat) (graph : Subgraph) (owner : Option Location) :
    Option (Except GraphError Located) :=
  let place := unsignedWord address.state
  if address.state ≠ -1 ∧ graph.states.length ≤ place then
    some (.error (.stateOutOfRange id address.state))
  else if address.node ≠ -1 then
    if address.state = -1 then some (.error (.malformedAddress address.toText .nodeWithoutState))
    else graph.states[place]?.map fun state =>
      if state.nodes.length ≤ unsignedWord address.node then
        .error (.nodeOutOfRange id place address.node)
      else .ok ⟨.node id place (unsignedWord address.node), some (.state id place)⟩
  else if address.edge ≠ -1 then
    if address.state = -1 then
      if graph.edges.length ≤ unsignedWord address.edge then
        some (.error (.edgeOutOfRange (.graph id) address.edge))
      else some (.ok ⟨.edge id none (unsignedWord address.edge), some (.graph id)⟩)
    else graph.states[place]?.map fun state =>
      if state.edges.length ≤ unsignedWord address.edge then
        .error (.edgeOutOfRange (.state id place) address.edge)
      else .ok ⟨.edge id (some place) (unsignedWord address.edge), some (.state id place)⟩
  else if address.state = -1 then some (.ok ⟨.graph id, owner.map .ofLocation⟩)
  else some (.ok ⟨.state id place, some (.graph id)⟩)

/-- Locating by indices. -/
def locateByIndex (arena : Arena) (address : Address) : Option (Except GraphError Located) :=
  if address.graph < 0 then some (.error (.graphNotFound address.graph))
  else match arena.ownerOf (unsignedWord address.graph) with
    | .error error => some (.error error)
    | .ok owner => match arena.graph (unsignedWord address.graph) with
      | .error error => some (.error error)
      | .ok graph => pickByIndex address (unsignedWord address.graph) graph owner

/-- No step leaves its list, since the state has been checked before it is taken again. -/
theorem pickByIndex_eq (address : Address) (id : Nat) (graph : Subgraph)
    (owner : Option Location) :
    pickByIndex address id graph owner = some (locateInside address id graph owner) := by
  rw [locateInside]
  by_cases hset : address.state = -1
  · rw [locateState, if_pos hset, ok_bind]
    simp only [pure, Except.pure]
    grind [pickByIndex]
  · cases hstate : graph.states[unsignedWord address.state]? with
    | none =>
        have hbeyond := List.getElem?_eq_none_iff.mp hstate
        rw [locateState, if_neg hset, hstate, error_bind, pickByIndex, if_pos ⟨hset, hbeyond⟩]
    | some state =>
        -- The state is there, so that taking it again gives the same.
        have hinside := (List.getElem?_eq_some_iff.mp hstate).1
        rw [locateState, if_neg hset, hstate, ok_bind]
        simp only [pure, Except.pure]
        grind [pickByIndex]

/-- No index leaves its list. -/
theorem locateByIndex_eq (arena : Arena) (address : Address) :
    arena.locateByIndex address = some (arena.locate address) := by
  rw [locateByIndex, locate]
  split
  · rfl
  · cases arena.ownerOf (unsignedWord address.graph) with
    | error => rfl
    | ok owner =>
        cases arena.graph (unsignedWord address.graph) with
        | error => rfl
        | ok graph => exact pickByIndex_eq address _ graph owner

/-! ## Locating is exact -/

/-- What locating four integers comes to. -/
structure LocatesExactly (arena : Arena) (address : Address) : Prop where
  /-- Every index that is used lies inside its list. -/
  guarded : arena.locateByIndex address = some (arena.locate address)
  succeeds : (∃ found, arena.locate address = .ok found) ↔ arena.Covers address
  /-- What is found is live, and is told by the components that are set. -/
  found : ∀ found, arena.locate address = .ok found →
    found.element = .ofAddress address ∧ arena.contains found.element = true ∧
      ∀ holder, found.parent = some holder ↔ arena.Holds holder found.element
  fails : ∀ error, arena.locate address = .error error ↔ arena.Offends address error
  /-- A component below minus one leads nowhere, unless it is an edge beside a node. -/
  negative : address.graph < -1 ∨ address.state < -1 ∨ address.node < -1 ∨
    (address.node = -1 ∧ address.edge < -1) → ∃ error, arena.locate address = .error error

/-- An address that covers an element has no negative component but -1. -/
theorem Covers.not_negative (h : arena.Covers address) : -1 ≤ address.graph ∧
    -1 ≤ address.state ∧ -1 ≤ address.node ∧ (address.node = -1 → -1 ≤ address.edge) := by
  obtain ⟨graph, hgraph, hstate, hnode, hedge⟩ := h
  simp only [PointsTo, IsIndex] at hgraph hstate hnode hedge
  grind

/-- On a well-formed arena, an address of any four signed words is located exactly as specified. -/
theorem WellFormed.locatesExactly (h : arena.WellFormed)
    (hcounts : arena.CountsBelow halfWordCount) (hsigned : address.IsSigned) :
    arena.LocatesExactly address := by
  have hfound : ∀ found, arena.locate address = .ok found → arena.Covers address := by
    intro found hlocated
    refine (arena.covers_or_offends address).resolve_right fun ⟨error, hoffends⟩ => ?_
    rw [h.locate_of_offends hcounts hsigned hoffends] at hlocated
    cases hlocated
  refine ⟨arena.locateByIndex_eq address, ?_, ?_, ?_, ?_⟩
  · exact ⟨fun ⟨found, hlocated⟩ => hfound found hlocated,
      fun hcovers => ⟨_, (h.locate_of_covers hsigned hcovers).1⟩⟩
  · intro found hlocated
    obtain ⟨hlocate, hlive⟩ := h.locate_of_covers hsigned (hfound found hlocated)
    rw [hlocate] at hlocated
    cases hlocated
    exact ⟨rfl, hlive, fun holder => h.holder?_eq_some⟩
  · intro error
    refine ⟨fun hfailed => ?_, h.locate_of_offends hcounts hsigned⟩
    rcases arena.covers_or_offends address with hcovers | ⟨other, hoffends⟩
    · rw [(h.locate_of_covers hsigned hcovers).1] at hfailed
      cases hfailed
    · rw [h.locate_of_offends hcounts hsigned hoffends] at hfailed
      cases hfailed
      exact hoffends
  · intro hnegative
    cases hlocated : arena.locate address with
    | error error => exact ⟨error, rfl⟩
    | ok found =>
        have hcomponents := (hfound found hlocated).not_negative
        omega

/-- In every arena that edits of a decoded graph lead to, and whose lists are shorter than signed
words count, any four signed words are located exactly. -/
theorem reachable_locatesExactly {document : Json} (hdocument : ofJson document = .ok arena)
    (edits : List Edit) (hcounts : (arena.afterEdits edits).CountsBelow halfWordCount)
    (hsigned : address.IsSigned) : (arena.afterEdits edits).LocatesExactly address :=
  ((ofJson_wellFormed hdocument).afterEdits edits).locatesExactly hcounts hsigned

/-- A node, beside the least of all words for an edge. -/
def strayAddress : Address :=
  ⟨0, 0, 0, -(halfWordCount : Int)⟩

theorem strayAddress_locatesExactly : ofJson nestedDocument = .ok nestedArena ∧
    (nestedArena.afterEdits nestedEdits).CountsBelow halfWordCount ∧ strayAddress.IsSigned ∧
      (nestedArena.afterEdits nestedEdits).LocatesExactly strayAddress ∧
        (nestedArena.afterEdits nestedEdits).locate strayAddress =
          .ok ⟨.node 0 0 0, some (.state 0 0)⟩ := by
  have hcounts : (nestedArena.afterEdits nestedEdits).CountsBelow halfWordCount := by decide
  have hsigned : strayAddress.IsSigned := by decide
  exact ⟨ofJson_nestedDocument, hcounts, hsigned,
    reachable_locatesExactly ofJson_nestedDocument nestedEdits hcounts hsigned, by decide⟩

end Arena

end DataflowEditor
