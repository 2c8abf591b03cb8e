import DataflowEditor.Graph.InPlace
import DataflowEditor.Proofs.Graph.Additions

/-! # Edits in place are all or nothing

An edit in place gives what the edit of a value gives. Where it fails, the arena is the one before
it: an edit either fails before its first write, or it was decoding a nested document, and then what
it wrote are graphs behind those that were there, which it cuts off. Where it succeeds, the place
that it answers is that of a new element.
-/

namespace DataflowEditor

namespace InPlace

open Arena

variable {α β : Type} {arena : Arena}

/-! ## One step after another -/

section Steps

variable {op : InPlace α} {find : Arena → Except GraphError α} {value : α} {error : GraphError}
  {left : Arena}

/-- What follows a step that succeeds runs on the arena that the step left. -/
theorem run_bind_ok (h : op.run arena = .ok value left) (more : α → InPlace β) :
    (op >>= more).run arena = (more value).run left := by
  change EStateM.bind op more arena = _
  rw [EStateM.run] at h
  rw [EStateM.bind, h]
  rfl

/-- What follows a step that fails does not run, and the arena is as the step left it. -/
theorem run_bind_error (h : op.run arena = .error error left) (more : α → InPlace β) :
    (op >>= more).run arena = .error error left := by
  change EStateM.bind op more arena = _
  rw [EStateM.run] at h
  rw [EStateM.bind, h]

theorem check_ok_bind (value : α) (more : α → InPlace β) :
    check (.ok value) >>= more = more value :=
  rfl

theorem run_get (more : Arena → InPlace α) : (get >>= more).run arena = (more arena).run arena :=
  rfl

/-- Looking something up leaves the arena as it is, whatever comes of it. -/
theorem run_look : (look find).run arena = (check (find arena)).run arena :=
  rfl

theorem run_look_ok (h : find arena = .ok value) (more : α → InPlace β) :
    (look find >>= more).run arena = (more value).run arena :=
  run_bind_ok (by rw [run_look, h]; rfl) more

/-- What is looked up in vain ends the operation with the arena as it was. -/
theorem run_look_error (h : find arena = .error error) (more : α → InPlace β) :
    (look find >>= more).run arena = .error error arena :=
  run_bind_error (by rw [run_look, h]; rfl) more

/-- A success needs no handler. -/
theorem run_tryCatch_ok (h : op.run arena = .ok value left) (handle : GraphError → InPlace α) :
    (tryCatch op handle).run arena = .ok value left := by
  change EStateM.tryCatch op handle arena = _
  rw [EStateM.run] at h
  rw [EStateM.tryCatch, h]

/-- A failure that is caught finds the arena as it is then, not as it was before. -/
theorem run_tryCatch_error (h : op.run arena = .error error left)
    (handle : GraphError → InPlace α) :
    (tryCatch op handle).run arena = (handle error).run left := by
  change EStateM.tryCatch op handle arena = _
  rw [EStateM.run] at h
  rw [EStateM.tryCatch, h]
  rfl

end Steps

/-! ## Decoding appends -/

/-- The outcome in place of a decoder that gives a value and a block of graphs. The graphs are
appended; a failure leaves others behind. -/
def appended (arena : Arena) (left : List Subgraph) :
    Except GraphError (α × List Subgraph) → EStateM.Result GraphError Arena α
  | .ok (value, block) => .ok value ⟨arena.graphs ++ block⟩
  | .error error => .error error ⟨arena.graphs ++ left⟩

/-- The decoder does in place what `decoded` tells, given the next free index. -/
def Appends (op : InPlace α) (decoded : Nat → Except GraphError (α × List Subgraph)) : Prop :=
  ∀ arena, ∃ left, op.run arena = appended arena left (decoded arena.graphs.length)

namespace Appends

variable {op : InPlace α} {more : α → InPlace β}
  {decoded : Nat → Except GraphError (α × List Subgraph)}
  {decodedMore : α → Nat → Except GraphError (β × List Subgraph)}

theorem pure (value : α) : Appends (pure value) fun _ => Pure.pure (value, []) := by
  intro arena
  refine ⟨[], ?_⟩
  change _ = appended arena [] (.ok _)
  rw [appended, List.append_nil]
  rfl

theorem throw (error : GraphError) : Appends (throw error : InPlace α) fun _ => .error error := by
  intro arena
  refine ⟨[], ?_⟩
  rw [appended, List.append_nil]
  rfl

/-- An outcome that is known decides how it goes on. -/
theorem check (outcome : Except GraphError α)
    (h : ∀ value, Appends (more value) (decodedMore value)) :
    Appends (check outcome >>= more) fun next =>
      outcome >>= fun value => decodedMore value next := by
  cases outcome with
  | error error => exact throw error
  | ok value => exact h value

/-- What is decoded later comes behind. -/
theorem bind (hop : Appends op decoded)
    (hmore : ∀ value, Appends (more value) (decodedMore value)) :
    Appends (op >>= more) fun next => do
      let (value, block) ← decoded next
      let (result, blocks) ← decodedMore value (next + block.length)
      return (result, block ++ blocks) := by
  intro arena
  rcases hop arena with ⟨left, hleft⟩
  dsimp only
  cases hdecoded : decoded arena.graphs.length with
  | error error =>
      rw [hdecoded] at hleft
      exact ⟨left, run_bind_error hleft more⟩
  | ok found =>
      rw [hdecoded] at hleft
      rw [run_bind_ok hleft, ok_bind]
      rcases hmore found.1 ⟨arena.graphs ++ found.2⟩ with ⟨behind, hbehind⟩
      rw [List.length_append] at hbehind
      refine ⟨found.2 ++ behind, ?_⟩
      rw [hbehind]
      cases decodedMore found.1 (arena.graphs.length + found.2.length) with
      | error error => rw [error_bind, appended, appended, List.append_assoc]
      | ok result =>
          rw [ok_bind]
          change _ = appended arena _ (.ok _)
          rw [appended, appended, List.append_assoc]

theorem congr {other : Nat → Except GraphError (α × List Subgraph)} (h : Appends op decoded)
    (hother : ∀ next, decoded next = other next) : Appends op other := by
  rwa [← funext hother]

end Appends

section Decoding

variable {nested : NestedDecoder} {decoded : DataflowEditor.NestedDecoder}

/-- A decoder of nested graphs does in place what another one tells. -/
def NestedDecoder.Follows (nested : NestedDecoder) (decoded : DataflowEditor.NestedDecoder) :
    Prop :=
  ∀ location inner, Appends (nested location inner) fun next =>
    (decoded next location inner).map fun block => (next, block)

/-- Decoding a node in place appends the block of its graph, and finds the same node. -/
theorem decodeNode_appends (h : nested.Follows decoded) (location : Location) (document : Json) :
    Appends (decodeNode nested location document) fun next => do
      let fields ← Part.node.fields document
      match ← Node.embedded fields with
      | none => return (⟨none, fields⟩, [])
      | some inner =>
        let block ← decoded next location inner
        return (⟨some next, Node.withoutEmbedded fields⟩, block) := by
  refine Appends.check _ fun fields => Appends.check _ fun embedded => ?_
  cases embedded with
  | none => exact Appends.pure _
  | some inner =>
      refine (Appends.bind (h location inner) fun id => Appends.pure _).congr fun next => ?_
      dsimp only
      cases decoded next location inner with
      | error error => rfl
      | ok block => simp [Except.map]

/-- Nodes append their blocks in turn, each from where the one before it ended. -/
theorem decodeNodes_appends (h : nested.Follows decoded) (graph state place : Nat)
    (documents : List Json) :
    Appends (decodeNodes nested graph state place documents) fun next =>
      State.decodeNodes decoded graph state next place documents := by
  induction documents generalizing place with
  | nil => exact Appends.pure _
  | cons document rest ih =>
      refine (Appends.bind (decodeNode_appends h ⟨graph, state, place⟩ document) fun node =>
        Appends.bind (ih (place + 1)) fun nodes => Appends.pure _).congr fun next => ?_
      rw [State.decodeNodes]
      cases Part.node.fields document with
      | error error => rfl
      | ok fields =>
          simp only [ok_bind]
          cases Node.embedded fields with
          | error error => rfl
          | ok embedded => cases embedded <;> simp

/-- Decoding a state in place appends the blocks of its nodes. -/
theorem decodeState_appends (h : nested.Follows decoded) (graph place : Nat) (document : Json) :
    Appends (decodeState nested graph place document) fun next =>
      State.decode decoded graph next place document := by
  refine (Appends.check _ fun fields => Appends.check _ fun nodeDocuments =>
    Appends.check _ fun edgeDocuments =>
      Appends.bind (decodeNodes_appends h graph place 0 nodeDocuments) fun nodes =>
        Appends.check _ fun edges => Appends.pure _).congr fun next => ?_
  simp [State.decode]

theorem decodeStates_appends (h : nested.Follows decoded) (graph place : Nat)
    (documents : List Json) :
    Appends (decodeStates nested graph place documents) fun next =>
      State.decodeAll decoded graph next place documents := by
  induction documents generalizing place with
  | nil => exact Appends.pure _
  | cons document rest ih =>
      refine (Appends.bind (decodeState_appends h graph place document) fun state =>
        Appends.bind (ih (place + 1)) fun states => Appends.pure _).congr fun next => ?_
      simp [State.decodeAll]

/-- The contents of a graph, and the block of the graphs nested in it. -/
def contents (decoded : DataflowEditor.NestedDecoder) (id : Nat) (fields : Fields) (next : Nat) :
    Except GraphError ((List State × List Edge) × List Subgraph) := do
  let stateDocuments ← Part.graph.items "nodes" fields
  let edgeDocuments ← Part.graph.items "edges" fields
  let (states, blocks) ← State.decodeAll decoded id next 0 stateDocuments
  let edges ← Edge.decodeAll states.length (.graph id) 0 edgeDocuments
  return ((states, edges), blocks)

/-- The contents of a graph are decoded in place as by themselves. -/
theorem decodeContents_appends (h : nested.Follows decoded) (id : Nat) (fields : Fields) :
    Appends (decodeContents nested id fields) (contents decoded id fields) := by
  refine (Appends.check _ fun stateDocuments => Appends.check _ fun edgeDocuments =>
    Appends.bind (decodeStates_appends h id 0 stateDocuments) fun states =>
      Appends.check _ fun edges => Appends.pure _).congr fun next => ?_
  simp [contents]

/-- A new graph takes the next free number. -/
theorem run_appendGraph (graph : Subgraph) :
    (appendGraph graph).run arena = .ok arena.graphs.length ⟨arena.graphs ++ [graph]⟩ :=
  rfl

/-- A graph is changed where it was appended, in front of the block behind it. -/
theorem modifyGraph_append (graph : Subgraph) (block : List Subgraph)
    (change : Subgraph → Subgraph) :
    (Arena.mk (arena.graphs ++ [graph] ++ block)).modifyGraph arena.graphs.length change =
      ⟨arena.graphs ++ change graph :: block⟩ := by
  rw [Arena.modifyGraph, List.modify_eq_take_drop]
  simp

/-- A graph that is filled in after its contents heads the block that is appended. -/
theorem decodeGraphWith_appends (h : nested.Follows decoded) (owner : Option Location)
    (fields : Fields) :
    Appends (decodeGraphWith nested owner fields) fun next =>
      (Subgraph.decodeWith decoded next owner fields).map fun block => (next, block) := by
  intro arena
  have hwith : Subgraph.decodeWith decoded arena.graphs.length owner fields = do
      Subgraph.checkKind fields
      let ((states, edges), blocks) ← contents decoded arena.graphs.length fields
        (arena.graphs.length + 1)
      return ⟨states, edges, owner, (fields.without "nodes").without "edges"⟩ :: blocks := by
    simp [Subgraph.decodeWith, contents]
  unfold decodeGraphWith
  dsimp only
  rw [hwith]
  cases Subgraph.checkKind fields with
  | error error => exact Appends.throw error arena
  | ok _ =>
      rw [check_ok_bind, ok_bind, run_bind_ok (run_appendGraph _)]
      -- The contents are read behind the graph that is still empty.
      rcases decodeContents_appends h arena.graphs.length fields
        ⟨arena.graphs ++ [⟨[], [], owner, []⟩]⟩ with ⟨left, hleft⟩
      rw [List.length_append, List.length_singleton] at hleft
      cases hcontents : contents decoded arena.graphs.length fields (arena.graphs.length + 1) with
      | error error =>
          rw [hcontents] at hleft
          refine ⟨⟨[], [], owner, []⟩ :: left, ?_⟩
          rw [run_bind_error hleft, error_bind, Except.map, appended, List.append_assoc,
            List.singleton_append]
      | ok found =>
          rw [hcontents] at hleft
          refine ⟨[], ?_⟩
          rw [run_bind_ok hleft, ok_bind]
          exact congrArg (EStateM.Result.ok arena.graphs.length) (modifyGraph_append _ found.2 _)

/-- The decoder descends with one step of fuel less, which is what the induction follows. -/
theorem decodeGraphWithin_appends (fuel : Nat) (owner : Option Location) (fields : Fields) :
    Appends (decodeGraphWithin fuel owner fields) fun next =>
      (Subgraph.decodeWithin fuel next owner fields).map fun block => (next, block) := by
  induction fuel generalizing owner fields with
  | zero => exact Appends.throw _
  | succ fuel ih =>
      exact decodeGraphWith_appends (fun location inner => ih (some location) inner) owner fields

/-- A graph that is decoded in place appends its block, and nothing else changes. -/
theorem decodeGraph_of_ok (arena : Arena) {owner : Option Location} {fields : Fields}
    {block : List Subgraph}
    (h : Subgraph.decode arena.graphs.length owner fields = .ok block) :
    (decodeGraph owner fields).run arena = .ok arena.graphs.length ⟨arena.graphs ++ block⟩ := by
  rcases decodeGraphWithin_appends (Json.depthMembers fields + 1) owner fields arena with
    ⟨left, hleft⟩
  rw [Subgraph.decode] at h
  simp only [h] at hleft
  exact hleft

/-- Whatever a malformed document has left in the arena stands behind the graphs that were there. -/
theorem decodeGraph_of_error (arena : Arena) {owner : Option Location} {fields : Fields}
    {error : GraphError}
    (h : Subgraph.decode arena.graphs.length owner fields = .error error) :
    ∃ left, (decodeGraph owner fields).run arena = .error error ⟨arena.graphs ++ left⟩ := by
  rcases decodeGraphWithin_appends (Json.depthMembers fields + 1) owner fields arena with
    ⟨left, hleft⟩
  rw [Subgraph.decode] at h
  simp only [h] at hleft
  exact ⟨left, hleft⟩

end Decoding

/-- A document is loaded exactly if it is decoded, and to the same arena. -/
theorem load_eq_ok {document : Json} :
    (load document).run ⟨[]⟩ = .ok () arena ↔ ofJson document = .ok arena := by
  unfold load ofJson
  cases Part.graph.fields document with
  | error error => exact iff_of_false nofun nofun
  | ok fields =>
      rw [check_ok_bind, ok_bind]
      cases hblock : Subgraph.decode 0 none fields with
      | error error =>
          rcases decodeGraph_of_error ⟨[]⟩ hblock with ⟨left, hleft⟩
          rw [run_bind_error hleft]
          exact iff_of_false nofun nofun
      | ok block =>
          rw [run_bind_ok (decodeGraph_of_ok ⟨[]⟩ hblock), ok_bind]
          constructor
          · rintro ⟨⟩
            rfl
          · rintro ⟨⟩
            rfl

/-! ## Edits -/

/-- The outcome in place of an edit that gives an arena and a value. A failure changes nothing. -/
def settled (arena : Arena) : Except GraphError (Arena × α) → EStateM.Result GraphError Arena α
  | .ok (left, value) => .ok value left
  | .error error => .error error arena

/-- An edit that looks outside a container fails there. -/
theorem run_guard {outside inside : Prop} [Decidable outside] [Decidable inside]
    (h : outside ↔ ¬ inside) {op : InPlace α} {outcome : Except GraphError (Arena × α)}
    (hop : op.run arena = settled arena outcome) (error : GraphError) :
    (if outside then (throw error : InPlace Unit) >>= fun _ => op else op).run arena =
      settled arena (if inside then outcome else .error error) := by
  by_cases hinside : inside
  · rw [if_neg fun houtside => h.mp houtside hinside, if_pos hinside]
    exact hop
  · rw [if_pos (h.mpr hinside), if_neg hinside]
    rfl

theorem pushState_eq (id : Nat) (fields : Fields) :
    (pushState id fields).run arena = settled arena (arena.pushState id fields) := by
  unfold pushState Arena.pushState
  cases hgraph : arena.graph id with
  | error error => exact run_look_error hgraph _
  | ok graph => exact run_look_ok hgraph _

theorem pushNode_eq (id place : Nat) (node : Node) :
    (pushNode id place node).run arena = settled arena (arena.pushNode id place node) := by
  unfold pushNode Arena.pushNode
  split
  · rfl
  · cases hstate : arena.state id place with
    | error error => exact run_look_error hstate _
    | ok state => exact run_look_ok hstate _

/-- This is the one edit that fails after it has written. -/
theorem pushNestedNode_eq (id place : Nat) (fields : Fields) (document : Json) :
    (pushNestedNode id place fields document).run arena =
      settled arena (arena.pushNestedNode id place fields document) := by
  unfold pushNestedNode Arena.pushNestedNode
  cases hstate : arena.state id place with
  | error error => exact run_look_error hstate _
  | ok state =>
      rw [run_look_ok hstate, ok_bind]
      cases Part.nested.fields document with
      | error error => rfl
      | ok inner =>
          rw [check_ok_bind, ok_bind, run_get]
          dsimp only
          cases hblock : Subgraph.decode arena.graphs.length
            (some ⟨id, place, state.nodes.length⟩) inner with
          | error error =>
              rcases decodeGraph_of_error arena hblock with ⟨left, hleft⟩
              rw [run_bind_error]
              · rfl
              · rw [run_tryCatch_error hleft]
                exact congrArg (fun graphs => EStateM.Result.error error (Arena.mk graphs))
                  List.take_left
          | ok block =>
              rw [run_bind_ok (run_tryCatch_ok (decodeGraph_of_ok arena hblock) _),
                run_look_ok (state_append hstate block)]
              rfl

/-- Connecting nodes in place agrees with connecting them by value. -/
theorem connectNodes_eq (id place source target : Nat) (fields : Fields) :
    (connectNodes id place source target fields).run arena =
      settled arena (arena.connectNodes id place source target fields) := by
  unfold connectNodes Arena.connectNodes
  cases hstate : arena.state id place with
  | error error => exact run_look_error hstate _
  | ok state =>
      rw [run_look_ok hstate, ok_bind]
      exact run_guard (by omega) rfl _

theorem connectStates_eq (id source target : Nat) (fields : Fields) :
    (connectStates id source target fields).run arena =
      settled arena (arena.connectStates id source target fields) := by
  unfold connectStates Arena.connectStates
  cases hgraph : arena.graph id with
  | error error => exact run_look_error hgraph _
  | ok graph =>
      rw [run_look_ok hgraph, ok_bind]
      exact run_guard (by omega) rfl _

theorem eraseState_eq (id place : Nat) :
    (eraseState id place).run arena = settled arena ((arena.eraseState id place).map (·, ())) := by
  unfold eraseState Arena.eraseState
  cases hstate : arena.state id place with
  | error error => exact run_look_error hstate _
  | ok state =>
      rcases state_eq_ok.mp hstate with ⟨graph, hgraph, -⟩
      rw [run_look_ok hstate]
      exact run_look_ok (graph_eq_ok.mpr hgraph) _

theorem eraseNode_eq (location : Location) :
    (eraseNode location).run arena = settled arena ((arena.eraseNode location).map (·, ())) := by
  unfold eraseNode Arena.eraseNode
  cases hnode : arena.node location with
  | error error => exact run_look_error hnode _
  | ok node =>
      rcases bind_eq_ok.mp hnode with ⟨state, hstate, -⟩
      rw [run_look_ok hnode]
      exact run_look_ok hstate _

/-- Whatever is removed, removing it in place agrees with removing it by value. -/
theorem erase_eq (arena : Arena) (element : Element) :
    (erase element).run arena = settled arena ((arena.erase element).map (·, ())) := by
  cases element with
  | graph id =>
      rw [erase, Arena.erase]
      cases hgraph : arena.graph id with
      | error error => exact run_look_error hgraph _
      | ok graph =>
          rw [run_look_ok hgraph, ok_bind, run_get]
          cases arena.recordedOwner id with
          | none => rfl
          | some owner => exact eraseNode_eq owner
  | state id place => exact eraseState_eq id place
  | node id place index => exact eraseNode_eq ⟨id, place, index⟩
  | edge id place index =>
      cases place with
      | some place =>
          rw [erase, Arena.erase]
          cases hstate : arena.state id place with
          | error error => exact run_look_error hstate _
          | ok state =>
              rw [run_look_ok hstate, ok_bind, apply_ite (Except.map (·, ()))]
              exact run_guard (by omega) rfl _
      | none =>
          rw [erase, Arena.erase]
          cases hgraph : arena.graph id with
          | error error => exact run_look_error hgraph _
          | ok graph =>
              rw [run_look_ok hgraph, ok_bind, apply_ite (Except.map (·, ()))]
              exact run_guard (by omega) rfl _

/-- An addition reports where its element is. -/
theorem run_placed {op : InPlace Nat} {outcome : Except GraphError (Arena × Nat)}
    (h : op.run arena = settled arena outcome) :
    (some <$> op).run arena = settled arena (outcome.map Edit.placed) := by
  cases outcome with
  | error error => exact run_bind_error h _
  | ok placed => exact run_bind_ok h _

/-- An edit in place gives what the edit of a value gives, and a failure changes nothing. -/
theorem edit_eq (arena : Arena) (request : Edit) :
    (edit request).run arena = settled arena (arena.edit request) := by
  cases request with
  | pushState id fields => exact run_placed (pushState_eq id fields)
  | pushNode id place node => exact run_placed (pushNode_eq id place node)
  | pushNestedNode id place fields document =>
      exact run_placed (pushNestedNode_eq id place fields document)
  | connectNodes id place source target fields =>
      exact run_placed (connectNodes_eq id place source target fields)
  | connectStates id source target fields =>
      exact run_placed (connectStates_eq id source target fields)
  | erase element =>
      have herase := erase_eq arena element
      rw [edit, Arena.edit]
      cases houtcome : arena.erase element with
      | error error =>
          rw [houtcome] at herase
          exact run_bind_error herase _
      | ok erased =>
          rw [houtcome] at herase
          exact run_bind_ok herase _
  | uninstrument => rfl

/-! ## Runs of edits -/

theorem afterEdit_eq (arena : Arena) (request : Edit) :
    afterEdit arena request = arena.afterEdit request := by
  rw [afterEdit, Arena.afterEdit, edit_eq]
  cases arena.edit request <;> rfl

/-- Runs of edits in place and by value lead to the same arena. -/
theorem afterEdits_eq (arena : Arena) (requests : List Edit) :
    afterEdits arena requests = arena.afterEdits requests := by
  have hstep : afterEdit = Arena.afterEdit := by
    funext arena request
    exact afterEdit_eq arena request
  rw [afterEdits, Arena.afterEdits, hstep]

/-- Whatever an editor has loaded and edited in place, an edit that fails leaves the arena exactly
as it was, and one that adds an element answers the place of one that is live now and was not. -/
theorem edit_allOrNothing {document : Json} {start : Arena}
    (h : (load document).run ⟨[]⟩ = .ok () start) (requests : List Edit) (request : Edit) :
    (∀ error left, (edit request).run (afterEdits start requests) = .error error left →
      left = afterEdits start requests) ∧
    ∀ answer left, (edit request).run (afterEdits start requests) = .ok answer left →
      request.adds = true → ∃ index element, answer = some index ∧
        request.added index = some element ∧ left.contains element = true ∧
          (afterEdits start requests).contains element = false := by
  -- From here on the edit is one of values, of which the effects are known.
  rw [edit_eq]
  cases houtcome : (afterEdits start requests).edit request with
  | error error =>
      refine ⟨?_, ?_⟩
      · rintro _ _ ⟨⟩
        rfl
      · rintro _ _ ⟨⟩
  | ok edited =>
      refine ⟨?_, ?_⟩
      · rintro _ _ ⟨⟩
      · rintro _ _ ⟨⟩ hadds
        have hformed : (afterEdits start requests).WellFormed := by
          rw [afterEdits_eq]
          exact reachable_wellFormed (load_eq_ok.mp h) requests
        exact (edit_effect houtcome).added_live hformed hadds

/-- A graph that owns another one with a graph of its own. Its second state is no state. -/
def brokenFields : Fields :=
  [("nodes", .arr [.obj [("nodes", .arr [.obj [("type", .str "NestedSDFG"),
    ("attributes", .obj [("sdfg", nestedDocument)])]])], .nat 0])]

def brokenEdit : Edit :=
  .pushNestedNode 0 0 [("type", .str "NestedSDFG")] (.obj brokenFields)

def nestedEdit : Edit :=
  .pushNestedNode 0 0 [("type", .str "NestedSDFG")] nestedDocument

/-- Three graphs have been appended to the two that were there when the decoder fails, and they are
gone after the edit. The edit that adds a sound document adds a node. -/
theorem nestedArena_allOrNothing :
    (∃ error left, (decodeGraph (some ⟨0, 0, 2⟩) brokenFields).run nestedArena = .error error left ∧
      left.graphs.length = 5) ∧
    (∃ error left, (edit brokenEdit).run (afterEdits nestedArena []) = .error error left ∧
      left = nestedArena) ∧
    ∃ left, (edit nestedEdit).run (afterEdits nestedArena []) = .ok (some 2) left ∧
      left.contains (.node 0 0 2) = true := by
  have hload : (load nestedDocument).run ⟨[]⟩ = .ok () nestedArena :=
    load_eq_ok.mpr ofJson_nestedDocument
  refine ⟨⟨_, _, rfl, by decide⟩, ?_, ?_⟩
  · have hbroken : ∃ error left,
        (edit brokenEdit).run (afterEdits nestedArena []) = .error error left := ⟨_, _, rfl⟩
    rcases hbroken with ⟨error, left, hleft⟩
    exact ⟨error, left, hleft, (edit_allOrNothing hload [] brokenEdit).1 error left hleft⟩
  · have hnested : ∃ left, (edit nestedEdit).run (afterEdits nestedArena []) = .ok (some 2) left :=
      ⟨_, rfl⟩
    rcases hnested with ⟨left, hleft⟩
    rcases (edit_allOrNothing hload [] nestedEdit).2 _ _ hleft rfl with
      ⟨index, element, ⟨⟩, ⟨⟩, hlive, -⟩
    exact ⟨left, hleft, hlive⟩

end InPlace

end DataflowEditor
