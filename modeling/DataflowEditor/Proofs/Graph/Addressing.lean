import DataflowEditor.Proofs.Graph.AddressGrammar
import DataflowEditor.Proofs.Graph.Containment
import DataflowEditor.Proofs.Graph.Editing

/-! # Addresses of live elements

In an arena whose places fit signed words, the address of a live element is located as that element,
together with its real container, and every other text fails: as malformed if it is no address, and
as dangling if it is one that no live element has. The owner of a nested graph is found by a search
from the root, which is complete because the arena is well formed.
-/

namespace DataflowEditor

/-! ## Addresses and elements -/

/-- An index below half the word range is the same as a signed word. -/
theorem signedWord_of_lt {n : Nat} (h : n < halfWordCount) : signedWord n = n := by
  simp only [halfWordCount] at h
  refine Int.bmod_eq_of_le ?_ ?_ <;> simp only [wordCount] <;> omega

/-- A word from the upper half is negative with a sign. -/
theorem signedWord_of_le {word : Nat} (hlow : halfWordCount ≤ word) (hhigh : word < wordCount) :
    signedWord word = word - (wordCount : Int) := by
  have hshift : signedWord word = Int.bmod (word - (wordCount : Int)) wordCount :=
    (Int.sub_bmod_right _ _).symm
  rw [hshift]
  simp only [halfWordCount] at hlow
  simp only [wordCount] at hhigh
  refine Int.bmod_eq_of_le ?_ ?_ <;> simp only [wordCount] <;> omega

theorem unsignedWord_natCast {n : Nat} (h : n < halfWordCount) : unsignedWord n = n := by
  simp only [halfWordCount] at h
  simp only [unsignedWord, wordCount]
  omega

namespace Element

/-- All places of the element fit signed words. -/
def FitsWords : Element → Prop
  | .graph id => id < halfWordCount
  | .state id place => id < halfWordCount ∧ place < halfWordCount
  | .node id place index => id < halfWordCount ∧ place < halfWordCount ∧ index < halfWordCount
  | .edge id (some place) index =>
    id < halfWordCount ∧ place < halfWordCount ∧ index < halfWordCount
  | .edge id none index => id < halfWordCount ∧ index < halfWordCount

/-- The address of an element whose places fit signed words holds them as they are. -/
theorem address_eq {element : Element} (h : element.FitsWords) :
    element.address = match element with
      | .graph id => ⟨id, -1, -1, -1⟩
      | .state id place => ⟨id, place, -1, -1⟩
      | .node id place index => ⟨id, place, index, -1⟩
      | .edge id (some place) index => ⟨id, place, -1, index⟩
      | .edge id none index => ⟨id, -1, -1, index⟩ := by
  cases element with
  | graph id => rw [address, signedWord_of_lt h]
  | state id place => rw [address, signedWord_of_lt h.1, signedWord_of_lt h.2]
  | node id place index =>
      rw [address, signedWord_of_lt h.1, signedWord_of_lt h.2.1, signedWord_of_lt h.2.2]
  | edge id place index =>
      cases place with
      | none => rw [address, signedWord_of_lt h.1, signedWord_of_lt h.2]
      | some place =>
          rw [address, signedWord_of_lt h.1, signedWord_of_lt h.2.1, signedWord_of_lt h.2.2]

/-- The element that the set components of an address name. -/
def ofAddress (address : Address) : Element :=
  if address.node ≠ -1 then .node address.graph.toNat address.state.toNat address.node.toNat
  else if address.edge ≠ -1 then
    .edge address.graph.toNat (if address.state = -1 then none else some address.state.toNat)
      address.edge.toNat
  else if address.state ≠ -1 then .state address.graph.toNat address.state.toNat
  else .graph address.graph.toNat

/-- The address of an element leads back to the element. -/
theorem ofAddress_address {element : Element} (h : element.FitsWords) :
    ofAddress element.address = element := by
  have hset : ∀ place : Nat, (place : Int) ≠ -1 := fun place => by omega
  rw [address_eq h]
  cases element with
  | edge id place index => cases place <;> simp [ofAddress, hset]
  | _ => simp [ofAddress, hset]

/-- Different elements have different addresses. -/
theorem address_injective {a b : Element} (ha : a.FitsWords) (hb : b.FitsWords)
    (h : a.address = b.address) : a = b := by
  rw [← ofAddress_address ha, h, ofAddress_address hb]

/-- No element has the address of nothing. -/
theorem address_ne_none {element : Element} (h : element.FitsWords) :
    element.address ≠ Address.none := by
  rw [address_eq h]
  intro heq
  have hgraph := congrArg Address.graph heq
  cases element with
  | edge id place index => cases place <;> simp [Address.none] at hgraph
  | _ => simp [Address.none] at hgraph

end Element

namespace Address

/-- An address in shape names nothing, or is that of an element. -/
theorem exists_element {address : Address} (hsigned : address.IsSigned)
    (hshaped : address.Shaped) (hnone : address ≠ none) :
    ∃ element : Element, element.FitsWords ∧ element.address = address := by
  obtain ⟨⟨hgraph, hstate, hnode, hedge⟩, hsingle, hplaced, hrooted⟩ := hshaped
  obtain ⟨⟨_, hgraph'⟩, ⟨_, hstate'⟩, ⟨_, hnode'⟩, ⟨_, hedge'⟩⟩ := hsigned
  have hplace : ∀ i : Int, -1 ≤ i → i < halfWordCount → i ≠ -1 →
      ∃ n : Nat, i = n ∧ n < halfWordCount := by
    intro i hlow hhigh hset
    obtain ⟨n, rfl⟩ := Int.eq_ofNat_of_zero_le (show 0 ≤ i by omega)
    exact ⟨n, rfl, Int.ofNat_lt.mp hhigh⟩
  obtain ⟨graph, state, node, edge⟩ := address
  have hset : graph ≠ -1 := by
    rintro rfl
    obtain ⟨rfl, rfl, rfl⟩ := hrooted rfl
    exact hnone rfl
  obtain ⟨id, rfl, hid⟩ := hplace graph hgraph hgraph' hset
  -- Without a node, what is set of state and edge tells the kind of element.
  by_cases hnodeSet : node = -1
  · subst hnodeSet
    by_cases hedgeSet : edge = -1
    · subst hedgeSet
      by_cases hstateSet : state = -1
      · subst hstateSet
        have hwords : (Element.graph id).FitsWords := hid
        exact ⟨_, hwords, Element.address_eq hwords⟩
      · obtain ⟨place, rfl, hplace⟩ := hplace state hstate hstate' hstateSet
        have hwords : (Element.state id place).FitsWords := ⟨hid, hplace⟩
        exact ⟨_, hwords, Element.address_eq hwords⟩
    · obtain ⟨index, rfl, hindex⟩ := hplace edge hedge hedge' hedgeSet
      by_cases hstateSet : state = -1
      · subst hstateSet
        have hwords : (Element.edge id Option.none index).FitsWords := ⟨hid, hindex⟩
        exact ⟨_, hwords, Element.address_eq hwords⟩
      · obtain ⟨place, rfl, hplace⟩ := hplace state hstate hstate' hstateSet
        have hwords : (Element.edge id (some place) index).FitsWords := ⟨hid, hplace, hindex⟩
        exact ⟨_, hwords, Element.address_eq hwords⟩
  · obtain rfl := hsingle.resolve_left hnodeSet
    obtain ⟨index, rfl, hindex⟩ := hplace node hnode hnode' hnodeSet
    obtain ⟨place, rfl, hplace⟩ := hplace state hstate hstate' (hplaced hnodeSet)
    have hwords : (Element.node id place index).FitsWords := ⟨hid, hplace, hindex⟩
    exact ⟨_, hwords, Element.address_eq hwords⟩

/-- The text of an address names nothing, or an element whose places fit signed words. -/
theorem ofText_eq_ok {text : String} {address : Address} (h : ofText text = .ok address) :
    address = none ∨ ∃ element : Element, element.FitsWords ∧ element.address = address := by
  obtain ⟨_, hsigned, hshaped⟩ := ofText_eq_ok_iff.mp h
  by_cases hnone : address = none
  · exact .inl hnone
  · exact .inr (exists_element hsigned hshaped hnone)

/-- A text that is no address cannot be answered: the fault is the caller's. -/
theorem isUnanswerable_of_ofText {text : String} {error : GraphError}
    (h : ofText text = .error error) : error.isUnanswerable = true := by
  obtain ⟨fault, rfl⟩ := ofText_eq_error h
  rfl

end Address

/-! ## The owner of a nested graph -/

/-- What a walk meets lies below one of the graphs that it starts with. -/
theorem Walks.exists_root {children : Nat → List Nat} {waiting met : List Nat}
    (h : Walks children waiting met) {target : Nat} (htarget : target ∈ met) :
    ∃ root ∈ waiting, ∃ below, Walks children (children root) below ∧
      (target = root ∨ target ∈ below) ∧ below.length < met.length := by
  induction waiting generalizing met with
  | nil =>
      cases h
      simp at htarget
  | cons first rest ih =>
      obtain ⟨front, back, rfl, hfront, hback⟩ :=
        Walks.split (show Walks children ([first] ++ rest) met from h)
      cases hfront with
      | @visit _ _ below hbelow =>
          rw [List.append_nil] at hbelow
          rcases List.mem_append.mp htarget with htarget | htarget
          · refine ⟨first, List.mem_cons_self, below, hbelow, List.mem_cons.mp htarget, ?_⟩
            simp only [List.length_append, List.length_cons]
            omega
          · obtain ⟨root, hroot, below', hbelow', hmem, hlength⟩ := ih hback htarget
            refine ⟨root, List.mem_cons_of_mem _ hroot, below', hbelow', hmem, ?_⟩
            simp only [List.length_append]
            omega

namespace Arena

variable {arena : Arena}

/-- The search returns a location only if the node there owns the graph. -/
theorem owns_of_searchOwner {target fuel id : Nat} {location : Location}
    (h : arena.searchOwner target fuel id = some location) : arena.Owns location target := by
  induction fuel generalizing id with
  | zero => cases h
  | succ fuel ih =>
      unfold searchOwner at h
      split at h
      · cases h
      next graph hgraph =>
        obtain ⟨⟨nested, found⟩, hmem, hfound⟩ := List.exists_of_findSome?_eq_some h
        dsimp only at hfound
        by_cases heq : nested = target
        · rw [if_pos heq] at hfound
          cases hfound
          subst heq
          obtain ⟨rfl, _⟩ := mem_ownersIn.mp hmem
          exact owns_iff.mpr ⟨graph, hgraph, hmem⟩
        · rw [if_neg heq] at hfound
          exact ih hfound

/-- The search descends into every child before the fuel, a bound on the graphs below, runs out. -/
theorem searchOwner_ne_none {target fuel id : Nat} {below : List Nat}
    (hwalk : Walks arena.childrenAt (arena.childrenAt id) below) (htarget : target ∈ below)
    (hfuel : below.length < fuel) : arena.searchOwner target fuel id ≠ none := by
  induction fuel generalizing id below with
  | zero => omega
  | succ fuel ih =>
      obtain ⟨root, hroot, inner, hinner, hmem, hlength⟩ := hwalk.exists_root htarget
      obtain ⟨graph, hgraph, location, howner⟩ := mem_childrenAt.mp hroot
      rw [searchOwner, hgraph]
      intro hnone
      have hstep := List.findSome?_eq_none_iff.mp hnone (root, location) howner
      dsimp only at hstep
      split at hstep
      · cases hstep
      next hne =>
        exact ih hinner (hmem.resolve_left (Ne.symm hne)) (by omega) hstep

/-- The search from the root agrees with the owner on record. -/
theorem WellFormed.ownerOf_eq (h : arena.WellFormed) {id : Nat}
    (hid : id < arena.graphs.length) : arena.ownerOf id = .ok (arena.recordedOwner id) := by
  unfold ownerOf
  split
  next hroot =>
    subst hroot
    obtain ⟨root, hgraph, hnone⟩ := Option.map_eq_some_iff.mp h.root
    rw [recordedOwner, hgraph, Option.bind_some, hnone]
  next hroot =>
    cases hsearch : arena.searchOwner id arena.graphs.length 0 with
    | some location =>
        rw [h.recordedOwner_eq_some_iff.mpr (owns_of_searchOwner hsearch)]
    | none =>
        have hwalk := h.preorder
        generalize hrange : List.range arena.graphs.length = met at hwalk
        cases hwalk with
        | @visit _ _ below hbelow =>
            rw [List.append_nil] at hbelow
            have hmem : id ∈ 0 :: below := hrange ▸ List.mem_range.mpr hid
            have hlength := congrArg List.length hrange
            rw [List.length_range, List.length_cons] at hlength
            exact absurd hsearch (searchOwner_ne_none hbelow
              ((List.mem_cons.mp hmem).resolve_left hroot) (by omega))

/-- Asking for the owner of a graph that does not exist is an error that names the graph. -/
theorem WellFormed.ownerOf_eq_error (h : arena.WellFormed) {id : Nat}
    (hid : arena.graphs.length ≤ id) :
    arena.ownerOf id = .error (.graphNotFound (signedWord id)) := by
  unfold ownerOf
  split
  next hroot =>
    obtain ⟨root, hgraph, _⟩ := Option.map_eq_some_iff.mp h.root
    have hpos := (List.getElem?_eq_some_iff.mp hgraph).1
    omega
  next =>
    cases hsearch : arena.searchOwner id arena.graphs.length 0 with
    | some location =>
        have hlt := (h.lt_of_owns (owns_of_searchOwner hsearch)).2
        omega
    | none => rfl

/-! ## Locating -/

/-- All lists of the arena are shorter than the bound. -/
def CountsBelow (arena : Arena) (bound : Nat) : Prop :=
  arena.graphs.length < bound ∧ ∀ graph ∈ arena.graphs,
    graph.states.length < bound ∧ graph.edges.length < bound ∧
      ∀ state ∈ graph.states, state.nodes.length < bound ∧ state.edges.length < bound

instance (arena : Arena) (bound : Nat) : Decidable (arena.CountsBelow bound) :=
  inferInstanceAs (Decidable (_ ∧ _))

/-- In an arena of physical size every live element fits into an address. -/
theorem CountsBelow.fitsWords (h : arena.CountsBelow halfWordCount) {element : Element}
    (hlive : arena.contains element = true) : element.FitsWords := by
  obtain ⟨hgraphs, hlists⟩ := h
  have hgraph : ∀ {id : Nat} {graph : Subgraph}, arena.graphs[id]? = some graph →
      id < halfWordCount := fun hfound =>
    (List.getElem?_eq_some_iff.mp hfound).1.trans hgraphs
  have hstate : ∀ {id place : Nat} {graph : Subgraph} {state : State},
      arena.graphs[id]? = some graph → graph.states[place]? = some state →
        place < halfWordCount := fun hfound hplace =>
    (List.getElem?_eq_some_iff.mp hplace).1.trans (hlists _ (List.mem_of_getElem? hfound)).1
  cases element with
  | graph id =>
      obtain ⟨graph, hfound⟩ := contains_graph.mp hlive
      exact hgraph hfound
  | state id place =>
      obtain ⟨graph, state, hfound, hplace⟩ := contains_state.mp hlive
      exact ⟨hgraph hfound, hstate hfound hplace⟩
  | node id place index =>
      obtain ⟨graph, state, hfound, hplace, hindex⟩ := contains_node.mp hlive
      obtain ⟨_, _, hwithin⟩ := hlists _ (List.mem_of_getElem? hfound)
      exact ⟨hgraph hfound, hstate hfound hplace,
        hindex.trans (hwithin _ (List.mem_of_getElem? hplace)).1⟩
  | edge id place index =>
      cases place with
      | none =>
          obtain ⟨graph, hfound, hindex⟩ := contains_between.mp hlive
          exact ⟨hgraph hfound, hindex.trans (hlists _ (List.mem_of_getElem? hfound)).2.1⟩
      | some place =>
          obtain ⟨graph, state, hfound, hplace, hindex⟩ := contains_within.mp hlive
          obtain ⟨_, _, hwithin⟩ := hlists _ (List.mem_of_getElem? hfound)
          exact ⟨hgraph hfound, hstate hfound hplace,
            hindex.trans (hwithin _ (List.mem_of_getElem? hplace)).2⟩

/-- The container of an element, as far as it can be told from the owners on record. -/
def holder? (arena : Arena) : Element → Option Element
  | .graph id => (arena.recordedOwner id).map .ofLocation
  | .state id _ => some (.graph id)
  | .node id place _ => some (.state id place)
  | .edge id (some place) _ => some (.state id place)
  | .edge id none _ => some (.graph id)

/-- The parent that is given for an element is what holds it. -/
theorem WellFormed.holder?_eq_some (h : arena.WellFormed) {element parent : Element} :
    arena.holder? element = some parent ↔ arena.Holds parent element := by
  constructor
  · intro hparent
    cases element with
    | graph id =>
        obtain ⟨location, hrecord, rfl⟩ := Option.map_eq_some_iff.mp hparent
        exact .nested (h.recordedOwner_eq_some_iff.mp hrecord)
    | state id place => cases hparent; exact .state id place
    | node id place index => cases hparent; exact .node id place index
    | edge id place index =>
        cases place with
        | none => cases hparent; exact .between id index
        | some place => cases hparent; exact .within id place index
  · intro hholds
    cases hholds with
    | nested howns =>
        rw [holder?, h.recordedOwner_eq_some_iff.mpr howns, Option.map_some]
    | _ => rfl

/-- Locating the address of an element comes down to picking it inside its graph. -/
theorem WellFormed.locate_eq (h : arena.WellFormed) {element : Element}
    (hfits : element.FitsWords) : arena.locate element.address =
      match arena.graphs[element.graphIndex]? with
      | some graph => locateInside element.address element.graphIndex graph
          (arena.recordedOwner element.graphIndex)
      | none => .error (.graphNotFound element.graphIndex) := by
  have hgraph : element.address.graph = element.graphIndex ∧
      element.graphIndex < halfWordCount := by
    rw [Element.address_eq hfits]
    cases element with
    | edge id place index => cases place <;> exact ⟨rfl, hfits.1⟩
    | graph id => exact ⟨rfl, hfits⟩
    | state id place => exact ⟨rfl, hfits.1⟩
    | node id place index => exact ⟨rfl, hfits.1⟩
  rw [locate, hgraph.1, if_neg (by omega), unsignedWord_natCast hgraph.2]
  cases hfound : arena.graphs[element.graphIndex]? with
  | none =>
      have hbeyond := List.getElem?_eq_none_iff.mp hfound
      rw [h.ownerOf_eq_error hbeyond, signedWord_of_lt hgraph.2]
      rfl
  | some graph =>
      have hinside := (List.getElem?_eq_some_iff.mp hfound).1
      rw [h.ownerOf_eq hinside, graph_eq_ok.mpr hfound]
      rfl

section LocateState

variable {g node edge : Int} {id place : Nat} {graph : Subgraph}

theorem locateState_unset : locateState ⟨g, -1, node, edge⟩ id graph = .ok none := by
  rw [locateState, if_pos rfl]

theorem locateState_live (hfits : place < halfWordCount) {state : State}
    (hstate : graph.states[place]? = some state) :
    locateState ⟨g, place, node, edge⟩ id graph = .ok (some (place, state)) := by
  have hset : (place : Int) ≠ -1 := by omega
  simp [locateState, hset, unsignedWord_natCast hfits, hstate]

theorem locateState_beyond (hfits : place < halfWordCount) (hstate : graph.states[place]? = none) :
    locateState ⟨g, place, node, edge⟩ id graph = .error (.stateOutOfRange id place) := by
  have hset : (place : Int) ≠ -1 := by omega
  simp [locateState, hset, unsignedWord_natCast hfits, hstate]

end LocateState

/-- The address of a live element leads to the element and its container. -/
theorem WellFormed.locate_live (h : arena.WellFormed) {element : Element}
    (hfits : element.FitsWords) (hlive : arena.contains element = true) :
    arena.locate element.address = .ok ⟨element, arena.holder? element⟩ := by
  have hset : ∀ place : Nat, (place : Int) ≠ -1 := fun place => by omega
  rw [h.locate_eq hfits, Element.address_eq hfits]
  cases element with
  | graph id =>
      obtain ⟨graph, hgraph⟩ := contains_graph.mp hlive
      simp [Element.graphIndex, hgraph, locateInside, locateState_unset, holder?, pure,
        Except.pure]
  | state id place =>
      obtain ⟨graph, state, hgraph, hstate⟩ := contains_state.mp hlive
      simp [Element.graphIndex, hgraph, locateInside, locateState_live hfits.2 hstate, holder?,
        pure, Except.pure]
  | node id place index =>
      obtain ⟨graph, state, hgraph, hstate, hindex⟩ := contains_node.mp hlive
      simp [Element.graphIndex, hgraph, locateInside, locateState_live hfits.2.1 hstate, holder?,
        hset, unsignedWord_natCast hfits.2.2, hindex, pure, Except.pure]
  | edge id place index =>
      cases place with
      | none =>
          obtain ⟨graph, hgraph, hindex⟩ := contains_between.mp hlive
          simp [Element.graphIndex, hgraph, locateInside, locateState_unset, holder?, hset,
            unsignedWord_natCast hfits.2, hindex, pure, Except.pure]
      | some place =>
          obtain ⟨graph, state, hgraph, hstate, hindex⟩ := contains_within.mp hlive
          simp [Element.graphIndex, hgraph, locateInside, locateState_live hfits.2.1 hstate,
            holder?, hset, unsignedWord_natCast hfits.2.2, hindex, pure, Except.pure]

/-- The address of an element that is not live fails where its first dead place is looked up. -/
theorem WellFormed.locate_dead (h : arena.WellFormed) {element : Element}
    (hfits : element.FitsWords) (hdead : ¬ arena.contains element = true) :
    ∃ error, arena.locate element.address = .error error ∧ error.isDangling = true := by
  have hset : ∀ place : Nat, (place : Int) ≠ -1 := fun place => by omega
  rw [h.locate_eq hfits, Element.address_eq hfits]
  cases hgraph : arena.graphs[element.graphIndex]? with
  | none => exact ⟨_, rfl, rfl⟩
  | some graph =>
      -- A state that is not there is noticed before node and edge are looked at.
      have hbeyond : ∀ {id place : Nat} {node edge : Int}, element.graphIndex = id →
          place < halfWordCount → graph.states[place]? = none → ∃ error,
            locateInside ⟨id, place, node, edge⟩ id graph (arena.recordedOwner id) =
              .error error ∧ error.isDangling = true := by
        intro id place node edge hid hfits hstate
        refine ⟨.stateOutOfRange id place, ?_, rfl⟩
        rw [locateInside, locateState_beyond hfits hstate, error_bind]
      cases element with
      | graph id => exact absurd (contains_graph.mpr ⟨graph, hgraph⟩) hdead
      | state id place =>
          cases hstate : graph.states[place]? with
          | none => exact hbeyond rfl hfits.2 hstate
          | some state => exact absurd (contains_state.mpr ⟨graph, state, hgraph, hstate⟩) hdead
      | node id place index =>
          cases hstate : graph.states[place]? with
          | none => exact hbeyond rfl hfits.2.1 hstate
          | some state =>
              have hindex : ¬ index < state.nodes.length := fun hlt =>
                hdead (contains_node.mpr ⟨graph, state, hgraph, hstate, hlt⟩)
              refine ⟨.nodeOutOfRange id place index, ?_, rfl⟩
              simp [Element.graphIndex, locateInside, locateState_live hfits.2.1 hstate, hset,
                unsignedWord_natCast hfits.2.2, hindex]
      | edge id place index =>
          cases place with
          | none =>
              have hindex : ¬ index < graph.edges.length := fun hlt =>
                hdead (contains_between.mpr ⟨graph, hgraph, hlt⟩)
              refine ⟨.edgeOutOfRange (.graph id) index, ?_, rfl⟩
              simp [Element.graphIndex, locateInside, locateState_unset, hset,
                unsignedWord_natCast hfits.2, hindex]
          | some place =>
              cases hstate : graph.states[place]? with
              | none => exact hbeyond rfl hfits.2.1 hstate
              | some state =>
                  have hindex : ¬ index < state.edges.length := fun hlt =>
                    hdead (contains_within.mpr ⟨graph, state, hgraph, hstate, hlt⟩)
                  refine ⟨.edgeOutOfRange (.state id place) index, ?_, rfl⟩
                  simp [Element.graphIndex, locateInside, locateState_live hfits.2.1 hstate, hset,
                    unsignedWord_natCast hfits.2.2, hindex]

theorem locate_none : arena.locate Address.none = .error (.graphNotFound (-1)) :=
  rfl

/-! ## Addresses and elements name each other -/

/-- The live elements of the arena and the addresses that can be located in it correspond. -/
structure AddressesExact (arena : Arena) : Prop where
  /-- The list of elements holds each live element once and nothing else. -/
  listed : ∀ element, arena.elements.count element = if arena.contains element then 1 else 0
  named : ∀ element, arena.contains element = true → arena.addressFor element ≠ Address.none
  distinct : ∀ a b, arena.contains a = true → arena.contains b = true →
    arena.addressFor a = arena.addressFor b → a = b
  /-- A text that gives the address of a live element leads to it and to its container. -/
  located : ∀ text element, arena.contains element = true →
    Address.ofText text = .ok element.address → ∃ parent,
      arena.locateText text = .ok ⟨element, parent⟩ ∧
        ∀ holder, parent = some holder ↔ arena.Holds holder element
  root_free : ∀ holder, ¬ arena.Holds holder (.graph 0)
  /-- No other text is located. -/
  live : ∀ text found, arena.locateText text = .ok found →
    arena.contains found.element = true ∧ Address.ofText text = .ok found.element.address
  malformed : ∀ text error, Address.ofText text = .error error →
    arena.locateText text = .error error ∧ error.isUnanswerable = true
  dangling : ∀ text address, Address.ofText text = .ok address →
    (∀ element, arena.contains element = true → element.address ≠ address) →
      ∃ error, arena.locateText text = .error error ∧ error.isDangling = true

theorem locateText_of_ok {text : String} {address : Address}
    (h : Address.ofText text = .ok address) : arena.locateText text = arena.locate address := by
  rw [locateText, h, ok_bind]

/-- Locating any other text fails as reading it fails. -/
theorem locateText_of_error {text : String} {error : GraphError}
    (h : Address.ofText text = .error error) : arena.locateText text = .error error := by
  rw [locateText, h, error_bind]

/-- Whatever is located is live, its places are signed words, and the text gives its address. -/
theorem WellFormed.located (h : arena.WellFormed) {text : String} {found : Located}
    (hfound : arena.locateText text = .ok found) :
    found.element.FitsWords ∧ arena.contains found.element = true ∧
      Address.ofText text = .ok found.element.address := by
  cases htext : Address.ofText text with
  | error error => simp [locateText_of_error htext] at hfound
  | ok address =>
      rw [locateText_of_ok htext] at hfound
      rcases Address.ofText_eq_ok htext with rfl | ⟨element, hfits, rfl⟩
      · simp [locate_none] at hfound
      · by_cases hlive : arena.contains element = true
        · rw [h.locate_live hfits hlive] at hfound
          cases hfound
          exact ⟨hfits, hlive, rfl⟩
        · obtain ⟨error, herror, _⟩ := h.locate_dead hfits hlive
          simp [herror] at hfound

/-- What is located is live, and the text was its address. -/
theorem WellFormed.located_live (h : arena.WellFormed) {text : String} {found : Located}
    (hfound : arena.locateText text = .ok found) :
    arena.contains found.element = true ∧ Address.ofText text = .ok found.element.address :=
  (h.located hfound).2

/-- On a well-formed arena of physical size, live elements are found at their addresses with their
parents, and every other text is refused for the reason it deserves. -/
theorem WellFormed.addressesExact (h : arena.WellFormed)
    (hcounts : arena.CountsBelow halfWordCount) : arena.AddressesExact where
  listed := count_elements
  named := by
    intro element hlive
    rw [addressFor, if_pos hlive]
    exact Element.address_ne_none (hcounts.fitsWords hlive)
  distinct := by
    intro a b ha hb heq
    rw [addressFor, addressFor, if_pos ha, if_pos hb] at heq
    exact Element.address_injective (hcounts.fitsWords ha) (hcounts.fitsWords hb) heq
  located := by
    intro text element hlive htext
    refine ⟨arena.holder? element, ?_, fun holder => h.holder?_eq_some⟩
    rw [locateText_of_ok htext]
    exact h.locate_live (hcounts.fitsWords hlive) hlive
  root_free := by
    intro holder hholds
    cases hholds with
    | nested howns => exact absurd (h.lt_of_owns howns).1 (Nat.not_lt_zero _)
  live := fun _ _ => h.located_live
  malformed := by
    intro text error htext
    exact ⟨locateText_of_error htext, Address.isUnanswerable_of_ofText htext⟩
  dangling := by
    intro text address htext hdead
    rw [locateText_of_ok htext]
    rcases Address.ofText_eq_ok htext with rfl | ⟨element, hfits, rfl⟩
    · exact ⟨_, locate_none, rfl⟩
    · exact h.locate_dead hfits fun hlive => hdead element hlive rfl

/-- In every arena that edits of a decoded graph lead to, and whose places fit signed words,
addresses and live elements name each other. -/
theorem reachable_addressesExact {document : Json} (hdocument : ofJson document = .ok arena)
    (edits : List Edit) (hcounts : (arena.afterEdits edits).CountsBelow halfWordCount) :
    (arena.afterEdits edits).AddressesExact :=
  ((ofJson_wellFormed hdocument).afterEdits edits).addressesExact hcounts

theorem nestedEdits_addressesExact : ofJson nestedDocument = .ok nestedArena ∧
    (nestedArena.afterEdits nestedEdits).CountsBelow halfWordCount ∧
      (nestedArena.afterEdits nestedEdits).AddressesExact := by
  have hcounts : (nestedArena.afterEdits nestedEdits).CountsBelow halfWordCount := by decide
  exact ⟨ofJson_nestedDocument, hcounts,
    reachable_addressesExact ofJson_nestedDocument nestedEdits hcounts⟩

end Arena

end DataflowEditor
