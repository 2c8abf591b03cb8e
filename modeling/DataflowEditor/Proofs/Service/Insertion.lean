import DataflowEditor.Proofs.Graph.Additions
import DataflowEditor.Proofs.Graph.AddressText
import DataflowEditor.Proofs.Graph.Refusal
import DataflowEditor.Proofs.Service.Payload
import DataflowEditor.Service.Insertion

/-! # What an insertion does

An accepted request changes one container: a graph that gets a state or an edge, or a state that
gets nodes or an edge. The cases are told here once, with the container found as the request names
it. New elements come behind those that are there, so they are not elements of the arena before, and
they carry the types that their kind asks for. The class of a library node is the one type that the
editor is free to choose: the new arena can be sent back exactly if it is not that of nodes with a
graph of their own.
-/

namespace DataflowEditor

/-! ## Kinds -/

namespace NodeKind

/-- The fields of a node that is put into a state by itself, whatever the state. -/
def plainFields? : NodeKind → Option Fields
  | .tasklet => some newTasklet
  | .library classpath => some (newLibraryNode classpath)
  | _ => none

def scope? : NodeKind → Option NewScope
  | .map => some .map
  | .consume => some .consume
  | _ => none

/-- The types of the nodes that a kind stands for. -/
def types : NodeKind → List String
  | .access => ["AccessNode"]
  | .map => ["MapEntry", "MapExit"]
  | .consume => ["ConsumeEntry", "ConsumeExit"]
  | .tasklet => ["Tasklet"]
  | .nested => ["NestedSDFG"]
  | .library classpath => [String.ofList (Text.afterLast '.' classpath.toList)]

end NodeKind

namespace InsertKind

/-- The types of the elements that a kind stands for. An edge has no address to find it by. -/
def types : InsertKind → List String
  | .state => ["SDFGState"]
  | .node kind => kind.types
  | _ => []

/-- Only the kind of nodes with a graph of their own stands for their type. -/
def WellNamed (kind : InsertKind) : Prop :=
  "NestedSDFG" ∈ kind.types → kind = .node .nested

instance : DecidablePred WellNamed := fun kind =>
  inferInstanceAs (Decidable ("NestedSDFG" ∈ kind.types → kind = .node .nested))

end InsertKind

namespace Arena

variable {arena : Arena}

/-- The type that a state or a node names. -/
def typeOf? (arena : Arena) : Element → Option String
  | .state id place =>
    (arena.graphs[id]?.bind fun graph => graph.states[place]?).map fun state =>
      state.fields.text "type"
  | .node id place index =>
    ((arena.graphs[id]?.bind fun graph => graph.states[place]?).bind fun state =>
      state.nodes[index]?).map Node.kind
  | _ => none

/-- A graph gets a data container if it has none. -/
def withData (arena : Arena) (id : Nat) : Arena :=
  arena.modifyGraph id fun graph =>
    { graph with fields := graph.fields.modifyAttributes fun attributes =>
        (withContainer attributes).1 }

/-- What a request makes of an arena, and the elements that are new. -/
inductive Insertion (arena : Arena) (request : InsertionRequest) :
    InsertKind → Arena → List Element → Prop
  | state {parent : Element} {id : Nat} {graph : Subgraph} :
      arena.locateParent request.parent = .ok parent → arena.stateContainer parent = .ok id →
      arena.graphs[id]? = some graph →
      Insertion arena request .state
        (arena.modifyGraph id (·.pushState
          ⟨[], [], newState ("state_" ++ Text.decimal graph.states.length)⟩))
        [.state id graph.states.length]
  | plain {kind : NodeKind} {fields : Fields} {id place : Nat} {state : State} :
      kind.plainFields? = some fields →
      arena.locateParent request.parent = .ok (.state id place) →
      arena.state id place = .ok state →
      Insertion arena request (.node kind)
        (arena.modifyState id place (·.pushNode ⟨none, fields⟩))
        [.node id place state.nodes.length]
  | access {id place : Nat} {graph : Subgraph} {state : State} :
      arena.locateParent request.parent = .ok (.state id place) →
      arena.graphs[id]? = some graph → graph.states[place]? = some state →
      Insertion arena request (.node .access)
        ((arena.withData id).modifyState id place (·.pushNode
          ⟨none, newAccessNode (withContainer (graph.attributes?.getD [])).2⟩))
        [.node id place state.nodes.length]
  | scope {kind : NodeKind} {scope : NewScope} {id place : Nat} {state : State} :
      kind.scope? = some scope →
      arena.locateParent request.parent = .ok (.state id place) →
      arena.state id place = .ok state →
      Insertion arena request (.node kind)
        ((arena.modifyState id place (·.pushNode
            ⟨none, scope.entryFields state.nodes.length⟩)).modifyState id place (·.pushNode
          ⟨none, scope.exitFields state.nodes.length⟩))
        [.node id place state.nodes.length, .node id place (state.nodes.length + 1)]
  | nested {id place : Nat} {state : State} {inner : Fields} {block : List Subgraph} :
      arena.locateParent request.parent = .ok (.state id place) →
      arena.state id place = .ok state → newNestedGraph = .obj inner →
      Subgraph.decode arena.graphs.length (some ⟨id, place, state.nodes.length⟩) inner =
        .ok block →
      Insertion arena request (.node .nested)
        ((Arena.mk (arena.graphs ++ block)).modifyState id place
          (·.pushNode ⟨some arena.graphs.length, newNestedNode⟩)).renumber
        [.node id place state.nodes.length]
  | joinNodes {start : String} {holder : Option Element} {id place source target : Nat}
      {state : State} :
      request.start = some start →
      arena.locateText start = .ok ⟨.node id place source, holder⟩ →
      arena.locateParent request.parent = .ok (.node id place target) →
      arena.state id place = .ok state → source < state.nodes.length →
      target < state.nodes.length →
      Insertion arena request .edge
        (arena.modifyState id place (·.pushEdge ⟨source, target, newStateEdge⟩)) []
  | joinStates {start : String} {holder : Option Element} {id source target : Nat}
      {graph : Subgraph} :
      request.start = some start →
      arena.locateText start = .ok ⟨.state id source, holder⟩ →
      arena.locateParent request.parent = .ok (.state id target) →
      arena.graphs[id]? = some graph → source < graph.states.length →
      target < graph.states.length →
      Insertion arena request .edge
        (arena.modifyGraph id (·.pushEdge ⟨source, target, newInterstateEdge⟩)) []

/-! ## Every insertion is one of these -/

section Inversion

variable {id place index : Nat} {node : Node} {fields : Fields} {state : State} {result : Arena}
  {elements : List Element}

theorem pushNode_eq_ok (h : arena.pushNode id place node = .ok (result, index)) :
    ∃ state, arena.state id place = .ok state ∧
      result = arena.modifyState id place (·.pushNode node) ∧ index = state.nodes.length := by
  unfold pushNode at h
  split at h
  · cases h
  · obtain ⟨state, hstate, h⟩ := bind_eq_ok.mp h
    cases h
    exact ⟨state, hstate, rfl, rfl⟩

theorem state_withData {graph : Subgraph} (hgraph : arena.graphs[id]? = some graph)
    (hplace : graph.states[place]? = some state) :
    (arena.withData id).state id place = .ok state := by
  refine state_eq_ok.mpr ⟨{ graph with fields := graph.fields.modifyAttributes fun attributes =>
    (withContainer attributes).1 }, ?_, hplace⟩
  rw [withData, modifyGraph_getElem?, hgraph, if_pos rfl, Option.map_some]

theorem insertPlain_eq_ok (h : arena.insertPlain id place fields = .ok (result, elements)) :
    ∃ state, arena.state id place = .ok state ∧
      result = arena.modifyState id place (·.pushNode ⟨none, fields⟩) ∧
      elements = [.node id place state.nodes.length] := by
  obtain ⟨⟨pushed, index⟩, hpush, h⟩ := bind_eq_ok.mp h
  cases h
  obtain ⟨state, hstate, rfl, rfl⟩ := pushNode_eq_ok hpush
  exact ⟨state, hstate, rfl, rfl⟩

/-- Inserting a scope pushes its entry and its exit, side by side. -/
theorem insertScope_eq_ok {scope : NewScope}
    (h : arena.insertScope id place scope = .ok (result, elements)) :
    ∃ state, arena.state id place = .ok state ∧
      result = (arena.modifyState id place (·.pushNode
        ⟨none, scope.entryFields state.nodes.length⟩)).modifyState id place (·.pushNode
          ⟨none, scope.exitFields state.nodes.length⟩) ∧
      elements = [.node id place state.nodes.length, .node id place (state.nodes.length + 1)] := by
  obtain ⟨state, hstate, h⟩ := bind_eq_ok.mp h
  obtain ⟨⟨opened, entry⟩, hentry, h⟩ := bind_eq_ok.mp h
  obtain ⟨⟨closed, exit⟩, hexit, h⟩ := bind_eq_ok.mp h
  cases h
  obtain ⟨found, hfound, rfl, rfl⟩ := pushNode_eq_ok hentry
  obtain rfl := Except.ok.inj (hstate.symm.trans hfound)
  obtain ⟨again, hagain, rfl, rfl⟩ := pushNode_eq_ok hexit
  rw [state_modifyState hstate] at hagain
  obtain rfl := Except.ok.inj hagain
  refine ⟨state, hstate, rfl, ?_⟩
  simp [State.pushNode]

theorem insertNodes_eq_ok {request : InsertionRequest} {kind : NodeKind}
    (hparent : arena.locateParent request.parent = .ok (.state id place))
    (h : arena.insertNodes id place kind = .ok (result, elements)) :
    arena.Insertion request (.node kind) result elements := by
  have hplain : ∀ fields, kind.plainFields? = some fields →
      arena.insertPlain id place fields = .ok (result, elements) →
        arena.Insertion request (.node kind) result elements := by
    intro fields hfields hinsert
    obtain ⟨state, hstate, rfl, rfl⟩ := insertPlain_eq_ok hinsert
    exact .plain hfields hparent hstate
  have hscope : ∀ scope, kind.scope? = some scope →
      arena.insertScope id place scope = .ok (result, elements) →
        arena.Insertion request (.node kind) result elements := by
    intro scope hkind hinsert
    obtain ⟨state, hstate, rfl, rfl⟩ := insertScope_eq_ok hinsert
    exact .scope hkind hparent hstate
  cases kind with
  | access =>
      obtain ⟨⟨filled, data⟩, hdata, h⟩ := bind_eq_ok.mp h
      obtain ⟨graph, hgraph, hdata⟩ := bind_eq_ok.mp hdata
      cases hdata
      obtain ⟨state, hstate, rfl, rfl⟩ := insertPlain_eq_ok h
      obtain ⟨filled, hfilled, hplace⟩ := state_eq_ok.mp hstate
      have hfound := graph_eq_ok.mp hgraph
      rw [modifyGraph_getElem?, hfound, if_pos rfl] at hfilled
      cases hfilled
      exact .access hparent hfound hplace
  | map => exact hscope _ rfl h
  | consume => exact hscope _ rfl h
  | tasklet => exact hplain _ rfl h
  | nested =>
      obtain ⟨⟨pushed, index⟩, hpush, h⟩ := bind_eq_ok.mp h
      cases h
      obtain ⟨state, hstate, hpush⟩ := bind_eq_ok.mp hpush
      obtain ⟨inner, hinner, hpush⟩ := bind_eq_ok.mp hpush
      obtain ⟨block, hblock, hpush⟩ := bind_eq_ok.mp hpush
      cases hpush
      exact .nested hparent hstate (Part.fields_eq_ok.mp hinner) hblock
  | library classpath => exact hplain _ rfl h

theorem insertState_eq_ok {request : InsertionRequest} {parent : Element}
    (hparent : arena.locateParent request.parent = .ok parent)
    (h : arena.insertState parent = .ok (result, elements)) :
    arena.Insertion request .state result elements := by
  obtain ⟨id, hcontainer, h⟩ := bind_eq_ok.mp h
  obtain ⟨graph, hgraph, h⟩ := bind_eq_ok.mp h
  obtain ⟨⟨pushed, place⟩, hpush, h⟩ := bind_eq_ok.mp h
  cases h
  obtain ⟨found, hfound, hpush⟩ := bind_eq_ok.mp hpush
  cases hpush
  obtain rfl := Except.ok.inj (hgraph.symm.trans hfound)
  exact .state hparent hcontainer (graph_eq_ok.mp hgraph)

theorem join_eq_ok {request : InsertionRequest} {start : String} {source target : Element}
    {holder : Option Element} (hstart : request.start = some start)
    (hsource : arena.locateText start = .ok ⟨source, holder⟩)
    (htarget : arena.locateParent request.parent = .ok target)
    (h : arena.join source target = .ok (some result)) :
    arena.Insertion request .edge result [] := by
  unfold join at h
  split at h
  · split at h
    next hsame =>
      obtain ⟨rfl, rfl⟩ := hsame
      obtain ⟨⟨joined, index⟩, hjoin, h⟩ := bind_eq_ok.mp h
      cases h
      obtain ⟨state, hstate, hjoin⟩ := bind_eq_ok.mp hjoin
      dsimp only at hjoin
      split at hjoin
      next hbounds =>
        cases hjoin
        exact .joinNodes hstart hsource htarget hstate hbounds.1 hbounds.2
      next => cases hjoin
    next => cases h
  · split at h
    next hsame =>
      subst hsame
      obtain ⟨⟨joined, index⟩, hjoin, h⟩ := bind_eq_ok.mp h
      cases h
      obtain ⟨graph, hgraph, hjoin⟩ := bind_eq_ok.mp hjoin
      dsimp only at hjoin
      split at hjoin
      next hbounds =>
        cases hjoin
        exact .joinStates hstart hsource htarget (graph_eq_ok.mp hgraph) hbounds.1 hbounds.2
      next => cases hjoin
    next => cases h
  · cases h

/-- What a request of a kind may do. -/
theorem insertKind_eq_ok {request : InsertionRequest} {kind : InsertKind}
    (h : insertKind arena kind request = .ok (result, elements)) :
    arena.Insertion request kind result elements := by
  cases kind with
  | unnamedLibrary => cases h
  | edge =>
      cases hstart : request.start with
      | none => simp [insertKind, hstart] at h
      | some start =>
          simp only [insertKind, hstart] at h
          obtain ⟨source, hsource, h⟩ := bind_eq_ok.mp h
          obtain ⟨target, htarget, h⟩ := bind_eq_ok.mp h
          obtain ⟨joined, hjoined, h⟩ := bind_eq_ok.mp h
          cases joined with
          | none => cases h
          | some joined =>
              cases h
              exact join_eq_ok hstart (mapError_eq_ok.mp hsource) (mapError_eq_ok.mp htarget)
                (mapError_eq_ok.mp hjoined)
  | state =>
      obtain ⟨parent, hparent, h⟩ := bind_eq_ok.mp h
      exact insertState_eq_ok (mapError_eq_ok.mp hparent) (mapError_eq_ok.mp h)
  | node kind =>
      obtain ⟨parent, hparent, h⟩ := bind_eq_ok.mp h
      cases parent with
      | state id place =>
          exact insertNodes_eq_ok (mapError_eq_ok.mp hparent) (mapError_eq_ok.mp h)
      | _ => cases h

end Inversion

/-! ## The new elements -/

section NewElements

variable {request : InsertionRequest} {kind : InsertKind} {result : Arena} {elements : List Element}
  {id place index : Nat} {state : State} {node : Node}

theorem typeOf?_state (h : arena.state id place = .ok state) :
    arena.typeOf? (.state id place) = some (state.fields.text "type") := by
  obtain ⟨graph, hgraph, hplace⟩ := state_eq_ok.mp h
  rw [typeOf?, hgraph, Option.bind_some, hplace, Option.map_some]

theorem typeOf?_node (h : arena.state id place = .ok state)
    (hnode : state.nodes[index]? = some node) :
    arena.typeOf? (.node id place index) = some node.kind := by
  obtain ⟨graph, hgraph, hplace⟩ := state_eq_ok.mp h
  rw [typeOf?, hgraph, Option.bind_some, hplace, Option.bind_some, hnode, Option.map_some]

theorem contains_of_typeOf? {element : Element} {name : String}
    (h : arena.typeOf? element = some name) : arena.contains element = true := by
  cases element with
  | state id place =>
      obtain ⟨state, hstate, _⟩ := Option.map_eq_some_iff.mp h
      obtain ⟨graph, hgraph, hplace⟩ := Option.bind_eq_some_iff.mp hstate
      exact contains_state.mpr ⟨graph, state, hgraph, hplace⟩
  | node id place index =>
      obtain ⟨node, hnode, _⟩ := Option.map_eq_some_iff.mp h
      obtain ⟨state, hstate, hindex⟩ := Option.bind_eq_some_iff.mp hnode
      obtain ⟨graph, hgraph, hplace⟩ := Option.bind_eq_some_iff.mp hstate
      exact contains_node.mpr ⟨graph, state, hgraph, hplace,
        (List.getElem?_eq_some_iff.mp hindex).1⟩
  | graph id => cases h
  | edge id place index => cases h

theorem typeOf?_pushNode (h : arena.state id place = .ok state) (node : Node) :
    (arena.modifyState id place (·.pushNode node)).typeOf? (.node id place state.nodes.length) =
      some node.kind :=
  typeOf?_node (state_modifyState h _) (by simp [State.pushNode])

theorem typeOf?_pushNode_pushNode (h : arena.state id place = .ok state) (first second : Node) :
    [.node id place state.nodes.length, .node id place (state.nodes.length + 1)].map
        ((arena.modifyState id place (·.pushNode first)).modifyState id place
          (·.pushNode second)).typeOf? = [some first.kind, some second.kind] := by
  have hboth := state_modifyState (state_modifyState h (·.pushNode first)) (·.pushNode second)
  have hfirst : ((state.pushNode first).pushNode second).nodes[state.nodes.length]? =
      some first := by simp [State.pushNode]
  have hsecond : ((state.pushNode first).pushNode second).nodes[state.nodes.length + 1]? =
      some second := by simp [State.pushNode]
  rw [List.map_cons, List.map_singleton, typeOf?_node hboth hfirst, typeOf?_node hboth hsecond]

theorem state_pushState {graph : Subgraph} (h : arena.graphs[id]? = some graph) (added : State) :
    (arena.modifyGraph id (·.pushState added)).state id graph.states.length = .ok added := by
  exact state_eq_ok.mpr ⟨_, graph_modifyGraph h _, by simp [Subgraph.pushState]⟩

/-- The owner of a new nested graph is found where it was added. -/
theorem WellFormed.typeOf?_pushNested (h : arena.WellFormed)
    (hstate : arena.state id place = .ok state) {location : Location} {inner : Fields}
    {block : List Subgraph} (fields : Fields)
    (hblock : Subgraph.decode arena.graphs.length (some location) inner = .ok block) :
    ((Arena.mk (arena.graphs ++ block)).modifyState id place
      (·.pushNode ⟨some arena.graphs.length, fields⟩)).renumber.typeOf?
        (.node id place state.nodes.length) = some (fields.text "type") := by
  obtain ⟨pushed, nested, hpushed, hnode⟩ := h.node_pushNested hstate fields hblock
  exact typeOf?_node hpushed hnode

/-- The new elements stand where they are said to, each with the type that the kind asks for. -/
theorem Insertion.typeOf? (h : arena.Insertion request kind result elements)
    (hformed : arena.WellFormed) : elements.map result.typeOf? = kind.types.map some := by
  cases h with
  | state _ _ hgraph =>
      rw [List.map_singleton, typeOf?_state (state_pushState hgraph _)]
      rfl
  | @plain kind fields id place state hkind _ hstate =>
      rw [List.map_singleton, typeOf?_pushNode hstate]
      cases kind with
      | tasklet => cases hkind; rfl
      | library classpath => cases hkind; rfl
      | _ => cases hkind
  | access _ hgraph hplace =>
      rw [List.map_singleton, typeOf?_pushNode (state_withData hgraph hplace)]
      rfl
  | @scope kind scope _ _ _ hkind _ hstate =>
      rw [typeOf?_pushNode_pushNode hstate]
      cases kind with
      | map => cases hkind; rfl
      | consume => cases hkind; rfl
      | _ => cases hkind
  | nested _ hstate _ hblock =>
      rw [List.map_singleton, hformed.typeOf?_pushNested hstate _ hblock]
      rfl
  | joinNodes _ _ _ _ _ _ => rfl
  | joinStates _ _ _ _ _ _ => rfl

theorem Insertion.live (h : arena.Insertion request kind result elements)
    (hformed : arena.WellFormed) {element : Element} (helement : element ∈ elements) :
    result.contains element = true := by
  have hmem : result.typeOf? element ∈ kind.types.map some := by
    rw [← h.typeOf? hformed]
    exact List.mem_map_of_mem helement
  obtain ⟨name, _, hname⟩ := List.mem_map.mp hmem
  exact contains_of_typeOf? hname.symm

/-- New elements come behind those that are there. -/
theorem Insertion.fresh (h : arena.Insertion request kind result elements) {element : Element}
    (helement : element ∈ elements) : arena.contains element = false := by
  have hnode : ∀ {id place : Nat} {state : State}, arena.state id place = .ok state →
      ∀ index, state.nodes.length ≤ index → arena.contains (.node id place index) = false := by
    intro id place state hstate index hindex
    rw [← Bool.not_eq_true, contains_node_iff hstate]
    omega
  cases h with
  | @state parent id graph _ _ hgraph =>
      obtain rfl := List.mem_singleton.mp helement
      rw [← Bool.not_eq_true, contains_state_iff hgraph]
      exact Nat.lt_irrefl _
  | plain _ _ hstate =>
      obtain rfl := List.mem_singleton.mp helement
      exact hnode hstate _ (Nat.le_refl _)
  | access _ hgraph hplace =>
      obtain rfl := List.mem_singleton.mp helement
      exact hnode (state_eq_ok.mpr ⟨_, hgraph, hplace⟩) _ (Nat.le_refl _)
  | scope _ _ hstate =>
      rcases List.mem_cons.mp helement with rfl | helement
      · exact hnode hstate _ (Nat.le_refl _)
      · obtain rfl := List.mem_singleton.mp helement
        exact hnode hstate _ (Nat.le_succ _)
  | nested _ hstate _ _ =>
      obtain rfl := List.mem_singleton.mp helement
      exact hnode hstate _ (Nat.le_refl _)
  | joinNodes _ _ _ _ _ _ => cases helement
  | joinStates _ _ _ _ _ _ => cases helement

end NewElements

/-! ## The new arena can be sent back -/

/-- A parent is live, and its places are signed words. -/
theorem WellFormed.locateParent_live (h : arena.WellFormed) {parent : Option String}
    {element : Element} (hparent : arena.locateParent parent = .ok element) :
    element.FitsWords ∧ arena.contains element = true := by
  have hroot : (Element.graph 0).FitsWords ∧ arena.contains (.graph 0) = true := by
    obtain ⟨graph, hgraph, _⟩ := Option.map_eq_some_iff.mp h.root
    exact ⟨(by decide : 0 < halfWordCount), contains_graph.mpr ⟨graph, hgraph⟩⟩
  unfold locateParent at hparent
  dsimp only at hparent
  split at hparent
  · cases hparent
    exact hroot
  · obtain ⟨address, haddress, hparent⟩ := bind_eq_ok.mp hparent
    split at hparent
    · cases hparent
      exact hroot
    · obtain ⟨found, hfound, hparent⟩ := bind_eq_ok.mp hparent
      cases hparent
      rw [← locateText_of_ok haddress] at hfound
      obtain ⟨hfits, hlive, _⟩ := h.located hfound
      exact ⟨hfits, hlive⟩

/-- The arena of an insertion can be sent back, unless a library class is given the type that
stands for a graph within. -/
theorem Insertion.legible {request : InsertionRequest} {kind : InsertKind} {result : Arena}
    {elements : List Element} (h : arena.Insertion request kind result elements)
    (hlegible : arena.Legible) (hnamed : kind.WellNamed) : result.Legible := by
  have hword : ∀ {n : Nat}, n < halfWordCount → n < wordCount := by
    intro n hn
    simp only [halfWordCount, wordCount] at hn ⊢
    omega
  cases h with
  | state _ _ hgraph => exact hlegible.effect (.pushState hgraph) trivial trivial
  | @plain kind fields id place state hkind _ hstate =>
      refine hlegible.effect (.pushNode hstate rfl) ?_ trivial
      cases kind with
      | tasklet =>
          cases hkind
          exact show "Tasklet" ≠ "NestedSDFG" by decide
      -- This is the one type that the request chooses freely.
      | library classpath =>
          cases hkind
          intro hname
          cases hnamed (List.mem_singleton.mpr hname.symm)
      | _ => cases hkind
  | access _ hgraph hplace =>
      exact (hlegible.modifyAttributes _ _).effect
        (.pushNode (state_withData hgraph hplace) rfl)
        (show "AccessNode" ≠ "NestedSDFG" by decide) trivial
  | @scope kind scope id place state hkind _ hstate =>
      have hnames : scope.entry ≠ "NestedSDFG" ∧ scope.exit ≠ "NestedSDFG" := by
        cases kind with
        | map => cases hkind; decide
        | consume => cases hkind; decide
        | _ => cases hkind
      have hentry : (Edit.pushNode id place
        ⟨none, scope.entryFields state.nodes.length⟩).KeepsKinds := hnames.1
      have hexit : (Edit.pushNode id place
        ⟨none, scope.exitFields state.nodes.length⟩).KeepsKinds := hnames.2
      exact (hlegible.effect (.pushNode hstate rfl) hentry trivial).effect
        (.pushNode (state_modifyState hstate _) rfl) hexit trivial
  | nested _ hstate _ hblock =>
      exact hlegible.effect (.pushNestedNode hstate hblock) rfl trivial
  | joinNodes _ hsource htarget hstate hinside hinside' =>
      -- The ends of the edge fit words because addresses have led to them.
      obtain ⟨⟨_, _, hfits⟩, _⟩ := hlegible.formed.located hsource
      obtain ⟨⟨_, _, hfits'⟩, _⟩ := hlegible.formed.locateParent_live htarget
      exact hlegible.effect (.connectNodes hstate hinside hinside') trivial
        ⟨hword hfits, hword hfits'⟩
  | joinStates _ hsource htarget hgraph hinside hinside' =>
      obtain ⟨⟨_, hfits⟩, _⟩ := hlegible.formed.located hsource
      obtain ⟨⟨_, hfits'⟩, _⟩ := hlegible.formed.locateParent_live htarget
      exact hlegible.effect (.connectStates hgraph hinside hinside') trivial
        ⟨hword hfits, hword hfits'⟩

/-- A library class with the type of nodes that own graphs makes a node that owns none. -/
theorem newLibraryNode_refused {classpath : String}
    (hname : String.ofList (Text.afterLast '.' classpath.toList) = "NestedSDFG") (index : Nat)
    (inner : Option Fields) :
    Node.embedded ((newLibraryNode classpath).put "id" (.nat index)) ≠ .ok inner := by
  intro hinner
  have hkind : ((newLibraryNode classpath).put "id" (.nat index)).text "type" = "NestedSDFG" :=
    (Node.text_put_id _ index).trans hname
  obtain ⟨members, rfl⟩ := Option.isSome_iff_exists.mp ((Node.embedded_isSome hinner).mpr hkind)
  have hembedded := Node.embedded_eq_some hinner
  rw [Fields.value?_put_of_ne _ _ _ _ (by decide)] at hembedded
  cases hembedded

/-- Whoever is asked for such a node writes a graph that is refused. -/
theorem Insertion.refused {request : InsertionRequest} {kind : InsertKind} {result : Arena}
    {elements : List Element} (h : arena.Insertion request kind result elements)
    (hlegible : arena.Legible) (hnamed : ¬ kind.WellNamed) (again : Arena) :
    ofJson result.toJson ≠ .ok again := by
  intro hread
  cases h with
  | @plain kind fields id place state hkind _ hstate =>
      cases kind with
      | library classpath =>
          cases hkind
          obtain ⟨hmem, _⟩ := Classical.not_imp.mp hnamed
          have hname := (List.mem_singleton.mp hmem).symm
          have hnode : (arena.modifyState id place (·.pushNode
              ⟨none, newLibraryNode classpath⟩)).node ⟨id, place, state.nodes.length⟩ =
                .ok ⟨none, newLibraryNode classpath⟩ := by
            obtain ⟨graph, hgraph, hplace⟩ := state_eq_ok.mp
              (state_modifyState hstate (·.pushNode ⟨none, newLibraryNode classpath⟩))
            exact node_eq_ok.mpr ⟨graph, _, hgraph, hplace, by simp [State.pushNode]⟩
          have hnested : Node.nested ⟨none, newLibraryNode classpath⟩ = none := rfl
          have hformed := hlegible.formed.effect (.pushNode hstate hnested)
          obtain ⟨inner, hinner⟩ := hformed.embedded_of_ofJson
            (hlegible.typed.owners.pushNode id place rfl) hread hnode rfl
          exact newLibraryNode_refused hname _ inner hinner
      | _ => exact hnamed (by decide)
  | @scope kind scope _ _ _ hkind _ _ =>
      cases kind with
      | map => exact hnamed (by decide)
      | consume => exact hnamed (by decide)
      | _ => cases hkind
  | _ => exact hnamed (by decide)

end Arena

end DataflowEditor
