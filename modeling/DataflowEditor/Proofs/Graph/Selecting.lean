import DataflowEditor.Graph.Selection
import DataflowEditor.Proofs.Graph.Descriptors
import Mathlib.Data.List.Induction

/-! # What selections come to

The plan for a selection is described by what its descriptors name, whatever their order and however
often they occur. A descriptor of a state or node has to name a live element. The graphs that are
touched are collected in ascending order, and the elements of one graph form a subgraph that holds
each of them once, in the order in which they are first named. Descriptors in another order, or
given more than once, make the same plan but for the order inside the subgraph.
-/

namespace DataflowEditor

/-! ## Collecting -/

section OnceInOrder

variable {α β : Type} [DecidableEq α] {items picked : List α}

/-- The list holds each item once, in the order in which the items first occur. -/
structure OnceInOrder (items picked : List α) : Prop where
  mem : ∀ item, item ∈ picked ↔ item ∈ items
  inOrder : picked.Pairwise fun a b => items.idxOf a < items.idxOf b

theorem OnceInOrder.nodup (h : OnceInOrder items picked) : picked.Nodup :=
  h.inOrder.imp fun hlt heq => absurd hlt (by simp [heq])

/-- Renaming the items one to one keeps what was picked of them, and its order. -/
theorem OnceInOrder.map [DecidableEq β] (h : OnceInOrder items picked) {name : α → β}
    (hname : Function.Injective name) : OnceInOrder (items.map name) (picked.map name) where
  mem := by simp [h.mem]
  inOrder := by
    rw [List.pairwise_map]
    refine h.inOrder.imp_of_mem fun {a b} ha hb hlt => ?_
    have hinjective : ∀ a ∈ items, ∀ b ∈ items, name a = name b → a = b :=
      fun a _ b _ heq => hname heq
    rwa [Arena.idxOf_map hinjective ((h.mem a).mp ha),
      Arena.idxOf_map hinjective ((h.mem b).mp hb)]

theorem OnceInOrder.exists_mem {places : List β} {name : β → α}
    (h : OnceInOrder items (places.map name)) (hsome : places ≠ []) :
    ∃ place, name place ∈ items := by
  obtain ⟨place, hplace⟩ := List.exists_mem_of_ne_nil _ hsome
  exact ⟨place, (h.mem _).mp (List.mem_map_of_mem hplace)⟩

/-- Items in another order are picked in another order. -/
theorem OnceInOrder.perm {others picked' : List α} (h : OnceInOrder items picked)
    (h' : OnceInOrder others picked') (hsame : ∀ item, item ∈ items ↔ item ∈ others) :
    picked.Perm picked' :=
  (List.perm_ext_iff_of_nodup h.nodup h'.nodup).mpr fun item => by rw [h.mem, h'.mem, hsame]

end OnceInOrder

/-- One more place is taken up only when it was not met before. -/
theorem firstOccurrences_append (places : List Nat) (place : Nat) :
    firstOccurrences (places ++ [place]) =
      if place ∈ firstOccurrences places then firstOccurrences places
      else firstOccurrences places ++ [place] := by
  rw [firstOccurrences, List.foldl_append]
  rfl

/-- Induction on the places from the end, where the next one is picked. -/
theorem onceInOrder_firstOccurrences (places : List Nat) :
    OnceInOrder places (firstOccurrences places) := by
  induction places using List.reverseRecOn with
  | nil => exact ⟨by simp [firstOccurrences], List.Pairwise.nil⟩
  | append_singleton places place ih =>
      have hbefore : ∀ {other}, other ∈ firstOccurrences places →
          (places ++ [place]).idxOf other = places.idxOf other := fun hother =>
        List.idxOf_append_of_mem ((ih.mem _).mp hother)
      have hkept : (firstOccurrences places).Pairwise fun a b =>
          (places ++ [place]).idxOf a < (places ++ [place]).idxOf b :=
        ih.inOrder.imp_of_mem fun ha hb hlt => by rwa [hbefore ha, hbefore hb]
      rw [firstOccurrences_append]
      split
      next hmem =>
        refine ⟨fun other => ?_, hkept⟩
        have hplace := (ih.mem place).mp hmem
        rw [ih.mem, List.mem_append, List.mem_singleton]
        exact ⟨.inl, fun h => h.elim id fun heq => heq ▸ hplace⟩
      next hmem =>
        refine ⟨fun other => by simp [ih.mem], List.pairwise_append.mpr ⟨hkept, by simp, ?_⟩⟩
        intro other hother last hlast
        obtain rfl := List.mem_singleton.mp hlast
        have hnew : last ∉ places := fun h => hmem ((ih.mem last).mpr h)
        rw [hbefore hother, List.idxOf_append_of_notMem hnew]
        exact Nat.lt_add_right _ (List.idxOf_lt_length_iff.mpr ((ih.mem other).mp hother))

theorem mem_insertAscending {n m : Nat} {ids : List Nat} :
    m ∈ insertAscending n ids ↔ m = n ∨ m ∈ ids := by
  induction ids with
  | nil => simp [insertAscending]
  | cons first rest ih =>
      unfold insertAscending
      split
      next heq => simp [heq]
      next =>
        split
        · simp
        · simp [ih, or_left_comm]

theorem pairwise_insertAscending {n : Nat} {ids : List Nat} (h : ids.Pairwise (· < ·)) :
    (insertAscending n ids).Pairwise (· < ·) := by
  induction ids with
  | nil => simp [insertAscending]
  | cons first rest ih =>
      obtain ⟨hfirst, hrest⟩ := List.pairwise_cons.mp h
      unfold insertAscending
      split
      next => exact h
      next hne =>
        split
        next hlt =>
          refine List.pairwise_cons.mpr ⟨fun m hm => ?_, h⟩
          rcases List.mem_cons.mp hm with rfl | hm
          · exact hlt
          · exact hlt.trans (hfirst m hm)
        next hge =>
          refine List.pairwise_cons.mpr ⟨fun m hm => ?_, ih hrest⟩
          rcases mem_insertAscending.mp hm with rfl | hm
          · omega
          · exact hfirst m hm

/-- The numbers in ascending order, each once. -/
def ascending (ids : List Nat) : List Nat :=
  ids.foldl (fun all id => insertAscending id all) []

theorem ascending_append (ids : List Nat) (id : Nat) :
    ascending (ids ++ [id]) = insertAscending id (ascending ids) := by
  rw [ascending, List.foldl_append]
  rfl

/-- Sorting neither loses an index nor adds one. -/
theorem mem_ascending {ids : List Nat} {id : Nat} : id ∈ ascending ids ↔ id ∈ ids := by
  induction ids using List.reverseRecOn with
  | nil => rfl
  | append_singleton ids last ih =>
      rw [ascending_append, mem_insertAscending, ih, List.mem_append, List.mem_singleton, or_comm]

/-- The sorted list is strictly ascending, so it has no index twice. -/
theorem pairwise_ascending (ids : List Nat) : (ascending ids).Pairwise (· < ·) := by
  induction ids using List.reverseRecOn with
  | nil => exact List.Pairwise.nil
  | append_singleton ids last ih =>
      rw [ascending_append]
      exact pairwise_insertAscending ih

/-- The ascending list depends on nothing but which numbers there are. -/
theorem eq_of_pairwise_lt {ids others : List Nat} (h : ids.Pairwise (· < ·))
    (h' : others.Pairwise (· < ·)) (hsame : ∀ id, id ∈ ids ↔ id ∈ others) : ids = others := by
  have hperm : ids.Perm others := (List.perm_ext_iff_of_nodup h.nodup h'.nodup).mpr hsame
  exact hperm.eq_of_pairwise (fun a b _ _ hab hba => absurd hba (Nat.lt_asymm hab)) h h'

/-! ## Descriptors -/

namespace Selection

variable {arena : Arena} {descriptor : Json} {selected : List Json} {id : Nat}

/-- The descriptor is of a type whose elements are looked up. -/
def IsOfElement (descriptor : Json) : Prop :=
  descriptor.member? "type" = some (.str "state") ∨ descriptor.member? "type" = some (.str "node")

instance (descriptor : Json) : Decidable (IsOfElement descriptor) :=
  inferInstanceAs (Decidable (_ ∨ _))

theorem namesElement_iff : namesElement descriptor = true ↔ IsOfElement descriptor := by
  unfold namesElement IsOfElement
  rw [← Fields.bind_asString?_eq_some, ← Fields.bind_asString?_eq_some]
  split <;> simp_all

/-- A descriptor that an element is described by is of an element. -/
theorem isOfElement_of_describedBy {element : Element} (h : element.DescribedBy descriptor) :
    IsOfElement descriptor := by
  cases h with
  | state _ _ htype => exact .inl htype
  | node _ _ htype => exact .inr htype
  | drawn _ _ htype => exact .inr htype

/-- The graph that a descriptor counts for: that of its element, or the one that it gives. -/
inductive Touches (descriptor : Json) : Nat → Prop
  | element {element : Element} : element.DescribedBy descriptor →
      Touches descriptor element.graphIndex
  | given {id : Nat} : ¬ IsOfElement descriptor → touchedGraph? descriptor = some id →
      Touches descriptor id

/-- A descriptor of no element touches the graph whose index it gives, if it gives one. -/
theorem touches_of_not_isOfElement (hkind : ¬ IsOfElement descriptor) :
    Touches descriptor id ↔ touchedGraph? descriptor = some id := by
  refine ⟨fun h => ?_, .given hkind⟩
  cases h with
  | element hdescribed => exact absurd (isOfElement_of_describedBy hdescribed) hkind
  | given _ hgiven => exact hgiven

/-- A descriptor of a state or node has to describe one that is live. -/
def Admits (arena : Arena) (descriptor : Json) : Prop :=
  IsOfElement descriptor →
    ∃ element : Element, element.DescribedBy descriptor ∧ arena.contains element = true

/-! ## The plan -/

/-- The graph that a descriptor counts for, if any. -/
def touched? (descriptor : Json) : Option Nat :=
  if namesElement descriptor then
    (Element.ofDescriptor descriptor).toOption.map Element.graphIndex
  else touchedGraph? descriptor

/-- The states and nodes that descriptors describe, in the order of the descriptors. -/
def described (selected : List Json) : List Element :=
  selected.filterMap fun descriptor => (Element.ofDescriptor descriptor).toOption

/-- The plan for descriptors that are all admitted. -/
def planFor (selected : List Json) : Selection :=
  let graphs := ascending (selected.filterMap touched?)
  ⟨graphs, if 1 < graphs.length then none else subgraphOf (described selected)⟩

/-- Reading a descriptor gives the element that the descriptor describes. -/
theorem toOption_ofDescriptor {element : Element} :
    (Element.ofDescriptor descriptor).toOption = some element ↔
      element.DescribedBy descriptor := by
  rw [← Element.ofDescriptor_eq_ok]
  cases Element.ofDescriptor descriptor <;> simp [Except.toOption]

/-- The described elements are those that some descriptor of the selection describes. -/
theorem mem_described {element : Element} :
    element ∈ described selected ↔ ∃ descriptor ∈ selected, element.DescribedBy descriptor := by
  simp only [described, List.mem_filterMap, toOption_ofDescriptor]

/-- The graph that the plan takes from a descriptor is the one that the descriptor touches. -/
theorem touched?_eq_some : touched? descriptor = some id ↔ Touches descriptor id := by
  unfold touched?
  split
  next hnames =>
    have hof := namesElement_iff.mp hnames
    rw [Option.map_eq_some_iff]
    constructor
    · rintro ⟨element, hread, rfl⟩
      exact .element (toOption_ofDescriptor.mp hread)
    · intro h
      cases h with
      | element hdescribed => exact ⟨_, toOption_ofDescriptor.mpr hdescribed, rfl⟩
      | given hnot => exact absurd hof hnot
  next hnames => exact (touches_of_not_isOfElement (mt namesElement_iff.mpr hnames)).symm

/-- The plan lists the graphs that some descriptor touches, and no others. -/
theorem mem_planFor_graphs :
    id ∈ (planFor selected).graphs ↔ ∃ descriptor ∈ selected, Touches descriptor id := by
  simp only [planFor, mem_ascending, List.mem_filterMap, touched?_eq_some]

/-- What one descriptor contributes does not depend on the arena, once it is admitted. -/
theorem contribution_eq_ok (h : arena.WellFormed) (descriptor : Json)
    (found : Option Nat × Option Element) :
    contribution arena descriptor = .ok found ↔ Admits arena descriptor ∧
      found = (touched? descriptor, (Element.ofDescriptor descriptor).toOption) := by
  unfold contribution touched?
  by_cases hnames : namesElement descriptor = true
  · have hof := namesElement_iff.mp hnames
    rw [if_pos hnames, if_pos hnames]
    constructor
    · intro hfound
      obtain ⟨element, hread, hlocate⟩ := bind_eq_ok.mp hfound
      obtain ⟨located, hlocated, hpure⟩ := bind_eq_ok.mp hlocate
      have hdescribed := Element.ofDescriptor_eq_ok.mp hread
      cases hpure
      refine ⟨fun _ => ⟨element, hdescribed, ?_⟩, by rw [hread]; rfl⟩
      by_contra hdead
      obtain ⟨error, herror, _⟩ := h.locate_dead hdescribed.fitsWords hdead
      rw [herror] at hlocated
      cases hlocated
    · rintro ⟨hadmits, rfl⟩
      obtain ⟨element, hdescribed, hlive⟩ := hadmits hof
      rw [Element.ofDescriptor_eq_ok.mpr hdescribed, ok_bind,
        h.locate_live hdescribed.fitsWords hlive]
      rfl
  · have hnot := mt namesElement_iff.mpr hnames
    have hnone : (Element.ofDescriptor descriptor).toOption = none :=
      Option.eq_none_iff_forall_ne_some.mpr fun element hread =>
        hnot (isOfElement_of_describedBy (toOption_ofDescriptor.mp hread))
    rw [if_neg hnames, if_neg hnames, hnone]
    constructor
    · intro hfound
      cases hfound
      exact ⟨fun hof => absurd hof hnot, rfl⟩
    · rintro ⟨_, rfl⟩
      rfl

/-- A selection is planned if each descriptor is admitted, and the plan follows from them. -/
theorem ofDescriptors_eq_ok (h : arena.WellFormed) {selection : Selection} :
    ofDescriptors arena selected = .ok selection ↔
      (∀ descriptor ∈ selected, Admits arena descriptor) ∧ selection = planFor selected := by
  have hcontributions := mapM_eq_ok_iff (contribution_eq_ok h) selected
  have hgraphs : ((selected.map fun descriptor =>
      (touched? descriptor, (Element.ofDescriptor descriptor).toOption)).filterMap (·.1)) =
        selected.filterMap touched? := List.filterMap_map
  have helements : ((selected.map fun descriptor =>
      (touched? descriptor, (Element.ofDescriptor descriptor).toOption)).filterMap (·.2)) =
        described selected := List.filterMap_map
  rw [ofDescriptors, bind_eq_ok]
  constructor
  · rintro ⟨contributions, hmap, hpure⟩
    obtain ⟨hadmits, rfl⟩ := (hcontributions contributions).mp hmap
    rw [hgraphs, helements] at hpure
    cases hpure
    exact ⟨hadmits, rfl⟩
  · rintro ⟨hadmits, rfl⟩
    refine ⟨_, (hcontributions _).mpr ⟨hadmits, rfl⟩, ?_⟩
    rw [hgraphs, helements]
    rfl

/-- A descriptor is turned down exactly when it is of an element and describes none that is live. -/
theorem not_admits_iff : ¬ Admits arena descriptor ↔ IsOfElement descriptor ∧
    ∀ element, Element.ofDescriptor descriptor = .ok element → arena.contains element = false := by
  simp only [Admits, Element.ofDescriptor_eq_ok, Classical.not_imp, not_exists, not_and,
    Bool.not_eq_true]

/-- Either all descriptors are admitted or the selection fails. -/
theorem ofDescriptors_cases (h : arena.WellFormed) (selected : List Json) :
    (∀ descriptor ∈ selected, Admits arena descriptor) ∧
        ofDescriptors arena selected = .ok (planFor selected) ∨
      (∃ descriptor ∈ selected, ¬ Admits arena descriptor) ∧
        ∃ error, ofDescriptors arena selected = .error error := by
  by_cases hadmits : ∀ descriptor ∈ selected, Admits arena descriptor
  · exact .inl ⟨hadmits, (ofDescriptors_eq_ok h).mpr ⟨hadmits, rfl⟩⟩
  · refine .inr ⟨by simpa using hadmits, ?_⟩
    cases hplan : ofDescriptors arena selected with
    | error error => exact ⟨error, rfl⟩
    | ok selection => exact absurd ((ofDescriptors_eq_ok h).mp hplan).1 hadmits

/-! ## Subgraphs -/

/-- The subgraph that elements of one graph form. -/
inductive Forms (elements : List Element) : Option SelectedSubgraph → Prop
  /-- As soon as there is a state, nodes do not count. -/
  | states {id : Nat} {picked : List Nat} : picked ≠ [] →
      OnceInOrder (elements.filter Element.isState) (picked.map (.state id)) →
      Forms elements (some (.states id picked))
  | nodes {id place : Nat} {picked : List Nat} : picked ≠ [] →
      OnceInOrder elements (picked.map (.node id place)) →
      Forms elements (some (.nodes id place picked))
  | scattered {id place index : Nat} {other : Element} :
      (∀ element ∈ elements, element.isState = false) → .node id place index ∈ elements →
      other ∈ elements → (∀ index, other ≠ .node id place index) → Forms elements none
  | nothing : elements = [] → Forms elements none

section Forms

variable {elements others : List Element}

/-- The states among the elements of one graph are those at the places of its state pairs. -/
theorem filter_isState (hgraph : ∀ element ∈ elements, element.graphIndex = id) :
    elements.filter Element.isState =
      ((elements.filterMap statePair?).map (·.2)).map (Element.state id) := by
  induction elements with
  | nil => rfl
  | cons element rest ih =>
      obtain ⟨hfirst, hrest⟩ := List.forall_mem_cons.mp hgraph
      cases element with
      | state graph place =>
          obtain rfl : graph = id := hfirst
          simpa [List.filter_cons, Element.isState, statePair?] using ih hrest
      | _ =>
          simpa [List.filter_cons, List.filterMap_cons, Element.isState, statePair?] using ih hrest

/-- Where all nodes share their state, the list is one of nodes of that state. -/
theorem eq_map_node {place : Nat} (hkinds : ∀ element ∈ elements, ∃ index,
    element = .node id place index) :
    elements = ((elements.filterMap nodeTriple?).map (·.2.2)).map (Element.node id place) := by
  induction elements with
  | nil => rfl
  | cons element rest ih =>
      obtain ⟨⟨index, rfl⟩, hrest⟩ := List.forall_mem_cons.mp hkinds
      conv_lhs => rw [ih hrest]
      simp [nodeTriple?]

theorem statePair?_eq_some {element : Element} {place : Nat} :
    statePair? element = some (id, place) ↔ element = .state id place := by
  cases element <;> simp [statePair?]

theorem nodeTriple?_eq_some {element : Element} {place index : Nat} :
    nodeTriple? element = some (id, place, index) ↔ element = .node id place index := by
  cases element <;> simp [nodeTriple?]

theorem firstOccurrences_ne_nil {places : List Nat} (h : places ≠ []) :
    firstOccurrences places ≠ [] := by
  obtain ⟨first, hfirst⟩ := List.exists_mem_of_ne_nil _ h
  exact List.ne_nil_of_mem (((onceInOrder_firstOccurrences places).mem first).mpr hfirst)

/-- Nodes form a subgraph if they all share the state of the first. -/
theorem forms_nodes {first : Nat × Nat × Nat} {more : List (Nat × Nat × Nat)}
    (hkinds : ∀ element ∈ elements, ∃ id place index, element = .node id place index)
    (hnodes : elements.filterMap nodeTriple? = first :: more) :
    Forms elements
      (if (first :: more).all fun node => node.1 = first.1 && node.2.1 = first.2.1 then
        some (.nodes first.1 first.2.1 (firstOccurrences ((first :: more).map (·.2.2))))
      else none) := by
  have hmem : ∀ node ∈ first :: more, Element.node node.1 node.2.1 node.2.2 ∈ elements := by
    intro node hnode
    obtain ⟨element, helement, htriple⟩ := List.mem_filterMap.mp (hnodes ▸ hnode)
    rwa [← nodeTriple?_eq_some.mp htriple]
  split
  next hall =>
    have hplace : ∀ element ∈ elements, ∃ index, element = .node first.1 first.2.1 index := by
      intro element helement
      obtain ⟨id, place, index, rfl⟩ := hkinds element helement
      have hin : (id, place, index) ∈ first :: more :=
        hnodes ▸ List.mem_filterMap.mpr ⟨_, helement, rfl⟩
      have hsame := List.all_eq_true.mp hall _ hin
      simp only [Bool.and_eq_true, decide_eq_true_eq] at hsame
      exact ⟨index, by rw [← hsame.1, ← hsame.2]⟩
    have hinjective : Function.Injective (Element.node first.1 first.2.1) := fun a b => by simp
    have honce := (onceInOrder_firstOccurrences ((first :: more).map (·.2.2))).map hinjective
    rw [← hnodes, ← eq_map_node hplace, hnodes] at honce
    exact .nodes (firstOccurrences_ne_nil (by simp)) honce
  next hall =>
    -- One node elsewhere is enough to have no subgraph.
    obtain ⟨other, hother, hdiffers⟩ : ∃ other ∈ first :: more,
        ¬ (other.1 = first.1 ∧ other.2.1 = first.2.1) := by
      simpa using hall
    refine .scattered (fun element helement => ?_) (hmem first List.mem_cons_self)
      (hmem other hother) fun index heq => hdiffers ?_
    · obtain ⟨_, _, _, rfl⟩ := hkinds element helement
      rfl
    · obtain ⟨hgraph, hplace, _⟩ := Element.node.inj heq
      exact ⟨hgraph, hplace⟩

/-- States and nodes of one graph are formed into a subgraph as the specification says. -/
theorem forms_subgraphOf (hkinds : ∀ element ∈ elements, (∃ id place, element = .state id place) ∨
    ∃ id place index, element = .node id place index)
    (hgraph : ∀ element ∈ elements, element.graphIndex = id) :
    Forms elements (subgraphOf elements) := by
  unfold subgraphOf
  dsimp only
  cases hstates : elements.filterMap statePair? with
  | cons first more =>
      obtain ⟨element, hmem, hpair⟩ := List.mem_filterMap.mp
        (show first ∈ elements.filterMap statePair? from hstates ▸ List.mem_cons_self)
      obtain rfl := statePair?_eq_some.mp hpair
      obtain rfl : first.1 = id := hgraph _ hmem
      refine .states (firstOccurrences_ne_nil (by simp)) ?_
      rw [filter_isState hgraph, hstates]
      exact (onceInOrder_firstOccurrences _).map fun a b => by simp
  | nil =>
      have hnode : ∀ element ∈ elements, ∃ id place index, element = .node id place index := by
        intro element helement
        refine (hkinds element helement).resolve_left ?_
        rintro ⟨id, place, rfl⟩
        exact absurd (List.filterMap_eq_nil_iff.mp hstates _ helement) (by simp [statePair?])
      cases hnodes : elements.filterMap nodeTriple? with
      | cons first more => exact forms_nodes hnode hnodes
      | nil =>
          refine .nothing (List.eq_nil_iff_forall_not_mem.mpr fun element helement => ?_)
          obtain ⟨id, place, index, rfl⟩ := hnode element helement
          exact absurd (List.filterMap_eq_nil_iff.mp hnodes _ helement) (by simp [nodeTriple?])

end Forms

/-! ## Descriptors in another order -/

/-- Both hold the same elements, in whatever order. -/
inductive SameElements : SelectedSubgraph → SelectedSubgraph → Prop
  | states {id : Nat} {picked others : List Nat} : picked.Perm others →
      SameElements (.states id picked) (.states id others)
  | nodes {id place : Nat} {picked others : List Nat} : picked.Perm others →
      SameElements (.nodes id place picked) (.nodes id place others)

section SameElements

variable {elements others : List Element} {subgraph other : Option SelectedSubgraph}

/-- With a state among the elements, the subgraph is of states: each once, in the order of the
elements. -/
theorem Forms.of_state {element : Element} (h : Forms elements subgraph)
    (hmem : element ∈ elements) (hstate : element.isState = true) : ∃ id picked,
      subgraph = some (.states id picked) ∧
        OnceInOrder (elements.filter Element.isState) (picked.map (.state id)) := by
  cases h with
  | states _ honce => exact ⟨_, _, rfl, honce⟩
  | nodes _ honce =>
      obtain ⟨index, _, rfl⟩ := List.mem_map.mp ((honce.mem element).mpr hmem)
      cases hstate
  | scattered hstateless => simp [hstateless element hmem] at hstate
  | nothing hnil => simp [hnil] at hmem

/-- Nodes of one state alone form a subgraph of these nodes: each once, in the order of the
elements. -/
theorem Forms.of_nodes {place : Nat} (h : Forms elements subgraph) (hsome : elements ≠ [])
    (hnodes : ∀ element ∈ elements, ∃ index, element = .node id place index) : ∃ picked,
      subgraph = some (.nodes id place picked) ∧
        OnceInOrder elements (picked.map (.node id place)) := by
  cases h with
  | states hpicked honce =>
      obtain ⟨first, hfirst⟩ := honce.exists_mem hpicked
      obtain ⟨index, heq⟩ := hnodes _ (List.mem_filter.mp hfirst).1
      cases heq
  | @nodes id' place' picked hpicked honce =>
      obtain ⟨first, hfirst⟩ := honce.exists_mem hpicked
      obtain ⟨index, heq⟩ := hnodes _ hfirst
      obtain ⟨rfl, rfl, _⟩ := Element.node.inj heq
      exact ⟨picked, rfl, honce⟩
  | scattered _ hnode hother hdiffers =>
      obtain ⟨_, heq⟩ := hnodes _ hnode
      obtain ⟨rfl, rfl, _⟩ := Element.node.inj heq
      obtain ⟨index, hother⟩ := hnodes _ hother
      exact absurd hother (hdiffers index)
  | nothing hnil => exact absurd hnil hsome

theorem Forms.of_scattered {place index : Nat} {other : Element} (h : Forms elements subgraph)
    (hstateless : ∀ element ∈ elements, element.isState = false)
    (hnode : .node id place index ∈ elements) (hother : other ∈ elements)
    (hdiffers : ∀ index, other ≠ .node id place index) : subgraph = none := by
  cases h with
  | states hpicked honce =>
      obtain ⟨first, hfirst⟩ := honce.exists_mem hpicked
      exact absurd (hstateless _ (List.mem_filter.mp hfirst).1) (by simp [Element.isState])
  | nodes _ honce =>
      obtain ⟨_, _, heq⟩ := List.mem_map.mp ((honce.mem _).mpr hnode)
      obtain ⟨rfl, rfl, _⟩ := Element.node.inj heq
      obtain ⟨index, _, heq⟩ := List.mem_map.mp ((honce.mem _).mpr hother)
      exact absurd heq.symm (hdiffers index)
  | _ => rfl

/-- What is formed does not depend on the order of the elements, or on how often each occurs. -/
theorem Forms.sameElements (h : Forms elements subgraph) (h' : Forms others other)
    (hsame : ∀ element, element ∈ elements ↔ element ∈ others) :
    Option.Rel SameElements subgraph other := by
  cases h with
  | @states id picked hpicked honce =>
      obtain ⟨place, hstate⟩ := honce.exists_mem hpicked
      have hfilter : ∀ element, element ∈ elements.filter Element.isState ↔
          element ∈ others.filter Element.isState := by simp [hsame]
      have hstate' := (hfilter _).mp hstate
      obtain ⟨id', picked', rfl, honce'⟩ :=
        h'.of_state (List.mem_filter.mp hstate').1 (List.mem_filter.mp hstate').2
      obtain ⟨_, _, heq⟩ := List.mem_map.mp ((honce'.mem _).mpr hstate')
      obtain ⟨rfl, _⟩ := Element.state.inj heq
      exact .some (.states ((List.map_perm_map_iff fun a b => by simp).mp
        (honce.perm honce' hfilter)))
  | @nodes id place picked hpicked honce =>
      obtain ⟨first, hfirst⟩ := honce.exists_mem hpicked
      have hnodes : ∀ element ∈ others, ∃ index, element = .node id place index := by
        intro element helement
        obtain ⟨index, _, heq⟩ := List.mem_map.mp ((honce.mem _).mpr ((hsame _).mpr helement))
        exact ⟨index, heq.symm⟩
      obtain ⟨picked', rfl, honce'⟩ :=
        h'.of_nodes (List.ne_nil_of_mem ((hsame _).mp hfirst)) hnodes
      exact .some (.nodes ((List.map_perm_map_iff fun a b => by simp).mp
        (honce.perm honce' hsame)))
  | scattered hstateless hnode hother hdiffers =>
      obtain rfl := h'.of_scattered (fun element helement =>
        hstateless element ((hsame element).mpr helement)) ((hsame _).mp hnode)
          ((hsame _).mp hother) hdiffers
      exact .none
  -- Without elements on one side there are none on the other.
  | nothing hnil =>
      have hnone : ∀ element, element ∉ others := by simp [← hsame, hnil]
      cases h' with
      | states hpicked honce =>
          obtain ⟨first, hfirst⟩ := honce.exists_mem hpicked
          exact absurd (List.mem_filter.mp hfirst).1 (hnone _)
      | nodes hpicked honce =>
          obtain ⟨first, hfirst⟩ := honce.exists_mem hpicked
          exact absurd hfirst (hnone _)
      | _ => exact .none

end SameElements

/-- The subgraph of a plan is asked about exactly if it is one of nodes. -/
theorem askable_eq_some {selection : Selection} {subgraph : SelectedSubgraph} :
    selection.askable = some subgraph ↔ selection.subgraph = some subgraph ∧
      ∃ id place nodes, subgraph = .nodes id place nodes := by
  rw [askable, Option.filter_eq_some_iff]
  refine and_congr_right fun _ => ?_
  cases subgraph <;> simp [SelectedSubgraph.isOfStates]

/-- Plans that differ in nothing but the order inside the subgraph. -/
structure Alike (first second : Selection) : Prop where
  graphs : first.graphs = second.graphs
  subgraph : Option.Rel SameElements first.subgraph second.subgraph
  askable : first.askable.isSome = second.askable.isSome

/-- Two plans with the same graphs and the same elements are alike. -/
theorem alike_of_sameElements {first second : Selection} (hgraphs : first.graphs = second.graphs)
    (hsubgraph : Option.Rel SameElements first.subgraph second.subgraph) :
    first.Alike second where
  graphs := hgraphs
  subgraph := hsubgraph
  askable := by
    obtain ⟨graphs, subgraph⟩ := first
    obtain ⟨graphs', subgraph'⟩ := second
    dsimp only at hsubgraph
    cases hsubgraph with
    | some hsame => cases hsame <;> rfl
    | none => rfl

/-- The graph of every described element is among the graphs of the plan. -/
theorem mem_planFor_of_described {element : Element} (h : element ∈ described selected) :
    element.graphIndex ∈ (planFor selected).graphs := by
  obtain ⟨descriptor, hmem, hdescribed⟩ := mem_described.mp h
  exact mem_planFor_graphs.mpr ⟨descriptor, hmem, .element hdescribed⟩

/-- In a selection that touches a single graph, all elements lie in that graph. -/
theorem forms_planFor (hsingle : (planFor selected).touchesSeveral = false) :
    Forms (described selected) (planFor selected).subgraph := by
  have hlength : ¬ 1 < (planFor selected).graphs.length := of_decide_eq_false hsingle
  -- Every element counts for a graph of the plan, which has one at most.
  obtain ⟨id, hgraph⟩ : ∃ id, ∀ element ∈ described selected, element.graphIndex = id := by
    have hmem : ∀ element ∈ described selected,
        element.graphIndex ∈ (planFor selected).graphs := fun _ => mem_planFor_of_described
    cases hgraphs : (planFor selected).graphs with
    | nil => exact ⟨0, fun element h => by simpa [hgraphs] using hmem element h⟩
    | cons id rest =>
        cases rest with
        | nil => exact ⟨id, fun element h => by simpa [hgraphs] using hmem element h⟩
        | cons => simp [hgraphs] at hlength
  have hsubgraph : (planFor selected).subgraph = subgraphOf (described selected) :=
    if_neg hlength
  rw [hsubgraph]
  refine forms_subgraphOf (fun element helement => ?_) hgraph
  obtain ⟨_, _, hdescribed⟩ := mem_described.mp helement
  exact hdescribed.state_or_node

theorem planFor_subgraph_eq_none (hseveral : (planFor selected).touchesSeveral = true) :
    (planFor selected).subgraph = none :=
  if_pos (of_decide_eq_true hseveral)

/-- Neither the order nor the repetition of the descriptors matters to the plan. -/
theorem planFor_alike {others : List Json}
    (hsame : ∀ descriptor, descriptor ∈ selected ↔ descriptor ∈ others) :
    (planFor selected).Alike (planFor others) := by
  have hgraphs : (planFor selected).graphs = (planFor others).graphs :=
    eq_of_pairwise_lt (pairwise_ascending _) (pairwise_ascending _) fun id => by
      simp only [mem_planFor_graphs, hsame]
  refine alike_of_sameElements hgraphs ?_
  cases hseveral : (planFor selected).touchesSeveral with
  | true =>
      have hseveral' : (planFor others).touchesSeveral = true := by
        rwa [touchesSeveral, ← hgraphs]
      rw [planFor_subgraph_eq_none hseveral, planFor_subgraph_eq_none hseveral']
      exact .none
  | false =>
      have hsingle : (planFor others).touchesSeveral = false := by
        rwa [touchesSeveral, ← hgraphs]
      refine (forms_planFor hseveral).sameElements (forms_planFor hsingle) fun element => ?_
      simp only [mem_described, hsame]

end Selection

/-! ## The plan for a selection -/

/-- The plan for a selection is what its descriptors ask for. -/
structure Arena.PlansExactly (arena : Arena) (selected : List Json) : Prop where
  fails : (∃ error, Selection.ofDescriptors arena selected = .error error) ↔
    ∃ descriptor ∈ selected, Selection.IsOfElement descriptor ∧
      ∀ element, Element.ofDescriptor descriptor = .ok element → arena.contains element = false
  ascending : ∀ selection, Selection.ofDescriptors arena selected = .ok selection →
    selection.graphs.Pairwise (· < ·)
  graphs : ∀ selection, Selection.ofDescriptors arena selected = .ok selection →
    ∀ id, id ∈ selection.graphs ↔ ∃ descriptor ∈ selected, Selection.Touches descriptor id
  several : ∀ selection, Selection.ofDescriptors arena selected = .ok selection →
    selection.touchesSeveral = true → selection.subgraph = none
  single : ∀ selection, Selection.ofDescriptors arena selected = .ok selection →
    selection.touchesSeveral = false →
      Selection.Forms (Selection.described selected) selection.subgraph
  /-- The subgraph is asked about if it is one of nodes, and no other subgraph is. -/
  askable : ∀ selection, Selection.ofDescriptors arena selected = .ok selection →
    ∀ subgraph, selection.askable = some subgraph ↔ selection.subgraph = some subgraph ∧
      ∃ id place nodes, subgraph = .nodes id place nodes
  /-- Neither the order of the descriptors nor how often they occur makes a difference. -/
  unordered : ∀ others, (∀ descriptor, descriptor ∈ selected ↔ descriptor ∈ others) →
    (∃ error error', Selection.ofDescriptors arena selected = .error error ∧
        Selection.ofDescriptors arena others = .error error') ∨
      ∃ first second, Selection.ofDescriptors arena selected = .ok first ∧
        Selection.ofDescriptors arena others = .ok second ∧ first.Alike second

/-- On a well-formed arena, selecting plans exactly what the specification asks for. -/
theorem Arena.WellFormed.plansExactly {arena : Arena} (h : arena.WellFormed)
    (selected : List Json) : arena.PlansExactly selected where
  fails := by
    rcases Selection.ofDescriptors_cases h selected with
      ⟨hadmits, hplan⟩ | ⟨⟨descriptor, hmem, hrejected⟩, hplan⟩
    · rw [hplan]
      simp only [reduceCtorEq, exists_false, false_iff, not_exists, not_and]
      intro descriptor hmem hof hdead
      exact Selection.not_admits_iff.mpr ⟨hof, hdead⟩ (hadmits descriptor hmem)
    · exact ⟨fun _ => ⟨descriptor, hmem, Selection.not_admits_iff.mp hrejected⟩, fun _ => hplan⟩
  ascending := by
    intro selection hplan
    obtain ⟨_, rfl⟩ := (Selection.ofDescriptors_eq_ok h).mp hplan
    exact pairwise_ascending _
  graphs := by
    intro selection hplan id
    obtain ⟨_, rfl⟩ := (Selection.ofDescriptors_eq_ok h).mp hplan
    exact Selection.mem_planFor_graphs
  several := by
    intro selection hplan hseveral
    obtain ⟨_, rfl⟩ := (Selection.ofDescriptors_eq_ok h).mp hplan
    exact Selection.planFor_subgraph_eq_none hseveral
  single := by
    intro selection hplan hsingle
    obtain ⟨_, rfl⟩ := (Selection.ofDescriptors_eq_ok h).mp hplan
    exact Selection.forms_planFor hsingle
  askable _ _ _ := Selection.askable_eq_some
  unordered := by
    intro others hsame
    rcases Selection.ofDescriptors_cases h selected with
      ⟨hadmits, hplan⟩ | ⟨⟨descriptor, hmem, hrejected⟩, error, herror⟩
    · refine .inr ⟨_, _, hplan, (Selection.ofDescriptors_eq_ok h).mpr ⟨?_, rfl⟩,
        Selection.planFor_alike hsame⟩
      exact fun descriptor hmem => hadmits descriptor ((hsame descriptor).mpr hmem)
    · rcases Selection.ofDescriptors_cases h others with ⟨hadmits, _⟩ | ⟨_, error', herror'⟩
      · exact absurd (hadmits descriptor ((hsame descriptor).mp hmem)) hrejected
      · exact .inl ⟨error, error', herror, herror'⟩

end DataflowEditor
