import DataflowEditor.Proofs.Graph.Editing
import DataflowEditor.Proofs.Json.Fields

/-! # Kinds of graphs and nodes

A graph is read again only if its type is that of graphs, and a node gives away the graph it owns
only if its type says that it owns one. Decoding accepts nothing else. Edits may give a node any
type, so the types are kept by those edits that add nodes of the right one.
-/

namespace DataflowEditor

/-- The node names the type of owners exactly if it owns a graph. -/
def Node.Typed (node : Node) : Prop :=
  node.nested.isSome ↔ node.kind = "NestedSDFG"

def State.Typed (state : State) : Prop :=
  ∀ node ∈ state.nodes, node.Typed

/-- The graph names no other type than that of graphs, and its nodes keep to theirs. -/
structure Subgraph.Typed (graph : Subgraph) : Prop where
  kind : checkKind graph.fields = .ok ()
  states : ∀ state ∈ graph.states, state.Typed

def Arena.Typed (arena : Arena) : Prop :=
  ∀ graph ∈ arena.graphs, graph.Typed

/-- Being typed depends on the node's type and on whether it nests a graph, on nothing else. -/
theorem Node.Typed.congr {node other : Node} (h : node.Typed)
    (hnested : other.nested.isSome = node.nested.isSome)
    (hkind : other.fields.value? "type" = node.fields.value? "type") : other.Typed := by
  rw [Typed, hnested, kind, Fields.text_congr hkind]
  exact h

theorem Node.Typed.renameScope {node : Node} (h : node.Typed) (name : Nat → Option Nat) :
    (node.renameScope name).Typed := by
  refine h.congr rfl ?_
  rw [Node.renameScope, Fields.value?_renameIndex_of_ne _ _ (by decide),
    Fields.value?_renameIndex_of_ne _ _ (by decide)]

theorem Subgraph.checkKind_congr {first second : Fields}
    (h : first.value? "type" = second.value? "type") : checkKind first = checkKind second := by
  rw [checkKind, checkKind, h]

/-! ## Decoded graphs -/

/-- The decoder finds an embedded graph in exactly the NestedSDFG nodes. -/
theorem Node.embedded_isSome {fields : Fields} {inner : Option Fields}
    (h : embedded fields = .ok inner) : inner.isSome ↔ fields.text "type" = "NestedSDFG" := by
  rw [Fields.text_eq_iff (by decide)]
  unfold embedded at h
  split at h
  next hkind =>
    split at h
    next document _ =>
      cases hfields : Part.nested.fields document with
      | error => simp [hfields, Except.map] at h
      | ok members =>
          rw [hfields] at h
          cases h
          simpa using hkind
    next => cases h
  next hkind =>
    cases h
    simpa using hkind

/-- Decoded nodes are typed. -/
theorem State.decodeNodes_typed {nested : NestedDecoder} {graph state next place : Nat}
    {documents : List Json} {nodes : List Node} {blocks : List Subgraph}
    (h : decodeNodes nested graph state next place documents = .ok (nodes, blocks)) :
    ∀ node ∈ nodes, node.Typed := by
  induction documents generalizing next place nodes blocks with
  | nil =>
      cases h
      simp
  | cons document rest ih =>
      obtain ⟨fields, _, h⟩ := bind_eq_ok.mp h
      obtain ⟨embedded, hembedded, h⟩ := bind_eq_ok.mp h
      have hkind := Node.embedded_isSome hembedded
      cases embedded with
      | none =>
          obtain ⟨⟨others, behind⟩, hrest, h⟩ := bind_eq_ok.mp h
          cases h
          exact List.forall_mem_cons.mpr ⟨hkind, ih hrest⟩
      | some inner =>
          obtain ⟨block, _, h⟩ := bind_eq_ok.mp h
          obtain ⟨⟨others, behind⟩, hrest, h⟩ := bind_eq_ok.mp h
          cases h
          have howner : Node.Typed ⟨some next, fields⟩ := hkind
          refine List.forall_mem_cons.mpr ⟨?_, ih hrest⟩
          exact howner.congr rfl (Fields.value?_modifyAttributes_of_ne _ (by decide))

theorem Subgraph.DecodedFrom.typed {nested : NestedDecoder} {id : Nat} {fields : Fields}
    {graph : Subgraph} (h : DecodedFrom nested id fields graph) : graph.Typed := by
  refine ⟨?_, fun state hstate => ?_⟩
  · have hsame : ((fields.without "nodes").without "edges").value? "type" =
        fields.value? "type" := by
      rw [Fields.value?_without_of_ne _ _ _ (by decide),
        Fields.value?_without_of_ne _ _ _ (by decide)]
    rw [h.fields, checkKind_congr hsame, h.kind]
  · obtain ⟨documents, blocks, hstates⟩ := h.states
    obtain ⟨_, _, _, _, hdecode⟩ := State.exists_decode hstates state hstate
    obtain ⟨_, _, hnodes, _⟩ := State.decode_eq_ok hdecode
    exact State.decodeNodes_typed hnodes

theorem Subgraph.decodeWithin_typed {fuel id : Nat} {owner : Option Location} {fields : Fields}
    {block : List Subgraph} (h : decodeWithin fuel id owner fields = .ok block) :
    ∀ graph ∈ block, graph.Typed :=
  forall_decodeWithin (fun _ _ _ _ hgraph => hgraph.typed) h

namespace Arena

variable {arena : Arena}

theorem ofJson_typed {document : Json} (h : ofJson document = .ok arena) : arena.Typed := by
  obtain ⟨fields, _, h⟩ := bind_eq_ok.mp h
  obtain ⟨graphs, hgraphs, h⟩ := bind_eq_ok.mp h
  cases h
  exact Subgraph.decodeWithin_typed hgraphs

/-! ## Edits -/

/-- A change that keeps states typed keeps the arena typed. -/
theorem Typed.modifyState (h : arena.Typed) {id place : Nat} {change : State → State}
    (hchange : ∀ state : State, state.Typed → (change state).Typed) :
    (arena.modifyState id place change).Typed :=
  forall_modifyState h (fun _ hgraph => hgraph.states) hchange
    fun _ _ hgraph hstates => ⟨hgraph.kind, hstates⟩

/-- Every node that owned a graph owns one after the graphs are renamed. -/
theorem Typed.renumber (h : arena.Typed) {met : List Nat} (hreach : arena.Reaches met) :
    arena.renumber.Typed := by
  refine hreach.forall_renumber h fun graph name owner htyped => ⟨htyped.kind, ?_⟩
  intro state hstate
  obtain ⟨first, hfirst, rfl⟩ := List.mem_map.mp hstate
  intro node hnode
  obtain ⟨unnamed, hunnamed, rfl⟩ := List.mem_map.mp hnode
  refine (htyped.states first hfirst unnamed hunnamed).congr ?_ rfl
  cases unnamed.nested <;> rfl

theorem Typed.pushNode (h : arena.Typed) (id place : Nat) {node : Node} (hnode : node.Typed) :
    (arena.modifyState id place (·.pushNode node)).Typed := by
  apply h.modifyState
  intro state hstate other hother
  rcases List.mem_append.mp hother with hother | hother
  · exact hstate other hother
  · rwa [List.mem_singleton.mp hother]

theorem Typed.eraseState (h : arena.Typed) (id place : Nat) :
    (arena.modifyGraph id (·.eraseState place)).Typed := by
  refine forall_modifyGraph h fun graph hgraph => ⟨?_, fun state hstate => ?_⟩
  · have hsame : (graph.eraseState place).fields.value? "type" = graph.fields.value? "type" :=
      Fields.value?_renameIndex_of_ne _ none (by decide)
    exact (Subgraph.checkKind_congr hsame).trans (h graph hgraph).kind
  · exact (h graph hgraph).states state (List.mem_of_mem_eraseIdx hstate)

theorem Typed.eraseNode (h : arena.Typed) (location : Location) :
    (arena.modifyState location.graph location.state (·.eraseNode location.node)).Typed := by
  apply h.modifyState
  intro state hstate node hnode
  obtain ⟨original, horiginal, rfl⟩ := List.mem_map.mp hnode
  exact (hstate original (List.mem_of_mem_eraseIdx horiginal)).renameScope _

theorem Typed.uninstrumented (h : arena.Typed) : arena.uninstrumented.Typed := by
  have hsame : ∀ fields : Fields, fields.uninstrumented.value? "type" = fields.value? "type" :=
    fun fields => Fields.value?_modifyAttributes_of_ne _ (by decide)
  intro graph hgraph
  obtain ⟨original, horiginal, rfl⟩ := List.mem_map.mp hgraph
  have htyped := h original horiginal
  refine ⟨(Subgraph.checkKind_congr (hsame _)).trans htyped.kind, fun state hstate => ?_⟩
  obtain ⟨first, hfirst, rfl⟩ := List.mem_map.mp hstate
  intro node hnode
  obtain ⟨measured, hmeasured, rfl⟩ := List.mem_map.mp hnode
  exact (htyped.states first hfirst measured hmeasured).congr rfl (hsame _)

end Arena

/-- The edit adds only nodes whose type fits what they own. -/
def Edit.KeepsKinds : Edit → Prop
  | .pushNode _ _ node => node.kind ≠ "NestedSDFG"
  | .pushNestedNode _ _ fields _ => fields.text "type" = "NestedSDFG"
  | _ => True

instance : DecidablePred Edit.KeepsKinds
  | .pushNode _ _ node => inferInstanceAs (Decidable (node.kind ≠ "NestedSDFG"))
  | .pushNestedNode _ _ fields _ =>
    inferInstanceAs (Decidable (fields.text "type" = "NestedSDFG"))
  | .pushState .. | .connectNodes .. | .connectStates .. | .erase .. | .uninstrument =>
    inferInstanceAs (Decidable True)

namespace Arena

variable {arena : Arena}

/-- Every edit that pushes typed nodes only keeps a well-formed arena typed. -/
theorem Typed.effect (h : arena.Typed) (hformed : arena.WellFormed) {edit : Edit}
    (hkeeps : edit.KeepsKinds) {result : Arena} {place : Option Nat}
    (heffect : arena.Effect edit result place) : result.Typed := by
  cases heffect with
  | pushState _ =>
      refine forall_modifyGraph h fun graph hgraph =>
        ⟨(h graph hgraph).kind, fun state hstate => ?_⟩
      rcases List.mem_append.mp hstate with hstate | hstate
      · exact (h graph hgraph).states state hstate
      · rw [List.mem_singleton.mp hstate]
        intro node hnode
        cases hnode
  | @pushNode id place node state _ hnested =>
      have hnode : node.Typed := by simpa [Node.Typed, Edit.KeepsKinds, hnested] using hkeeps
      exact h.pushNode id place hnode
  | @pushNestedNode id place fields inner state block hstate hblock =>
      have hgrown : (Arena.mk (arena.graphs ++ block)).Typed := by
        intro graph hgraph
        rcases List.mem_append.mp hgraph with hgraph | hgraph
        · exact h graph hgraph
        · exact Subgraph.decodeWithin_typed hblock graph hgraph
      have hnode : Node.Typed ⟨some arena.graphs.length, fields⟩ :=
        iff_of_true rfl hkeeps
      -- Renumbering renames graphs and leaves the type of every node alone.
      obtain ⟨met, _, hreach, _⟩ := hformed.reaches_pushNode hstate fields hblock
      exact (hgrown.pushNode id place hnode).renumber hreach
  | connectNodes _ _ _ => exact h.modifyState fun state hstate => hstate
  | connectStates _ _ _ =>
      exact forall_modifyGraph h fun graph hgraph =>
        ⟨(h graph hgraph).kind, (h graph hgraph).states⟩
  | @eraseGraph _ owner _ _ _ =>
      obtain ⟨met, _, hreach⟩ := hformed.reaches_eraseNode owner
      exact (h.eraseNode owner).renumber hreach
  | @eraseState id place _ _ =>
      obtain ⟨met, _, hreach⟩ := hformed.reaches_eraseState id place
      exact (h.eraseState id place).renumber hreach
  | @eraseNode location _ _ =>
      obtain ⟨met, _, hreach⟩ := hformed.reaches_eraseNode location
      exact (h.eraseNode location).renumber hreach
  | eraseWithin _ _ => exact h.modifyState fun state hstate => hstate
  | eraseBetween _ _ =>
      exact forall_modifyGraph h fun graph hgraph =>
        ⟨(h graph hgraph).kind, (h graph hgraph).states⟩
  | uninstrument => exact h.uninstrumented

/-- Types fit in every arena that such edits make of a decoded one. -/
theorem Typed.afterEdits (h : arena.Typed) (hformed : arena.WellFormed) {edits : List Edit}
    (hkeeps : ∀ edit ∈ edits, edit.KeepsKinds) : (arena.afterEdits edits).Typed := by
  induction edits generalizing arena with
  | nil => exact h
  | cons edit rest ih =>
      obtain ⟨hfirst, hrest⟩ := List.forall_mem_cons.mp hkeeps
      refine ih ?_ (hformed.afterEdit edit) hrest
      unfold Arena.afterEdit
      split
      next result place hedit => exact h.effect hformed hfirst (edit_effect hedit)
      next => exact h

end Arena

end DataflowEditor
