import DataflowEditor.Graph.Decode
import DataflowEditor.Proofs.Graph.WellFormed
import DataflowEditor.Proofs.Json.Records

/-! # Decoded graphs are in order

The decoder assigns indices while it descends into a document. The graphs it gives take up
consecutive indices, in depth-first order, each with its owner on record, and every edge it accepts
joins two elements of its container. These laws hold wherever the decoded graphs are put in an
arena, so that they also serve a graph that is nested in another one later.
-/

namespace DataflowEditor

theorem Part.fields_eq_ok {part : Part} {document : Json} {fields : Fields} :
    part.fields document = .ok fields ↔ document = .obj fields := by
  cases document <;> simp [Part.fields]

/-! ## Edges -/

namespace Edge

theorem endpoint_index {place bound index : Nat} {container : Container} {key : String}
    {fields : Fields} (h : endpoint place bound container key fields = .ok index) :
    (fields.value? key).bind Json.asIndex? = some index := by
  rw [endpoint] at h
  split at h
  · cases h
  next hfound =>
    split at h
    · cases h
      exact hfound
    · cases h

theorem endpoint_lt {place bound index : Nat} {container : Container} {key : String}
    {fields : Fields} (h : endpoint place bound container key fields = .ok index) :
    index < bound := by
  rw [endpoint] at h
  split at h
  · cases h
  · split at h
    next hlt =>
      cases h
      exact hlt
    next => cases h

/-- A decoded edge runs between places that exist. -/
theorem decode_inside {place bound : Nat} {container : Container} {document : Json} {edge : Edge}
    (h : decode place bound container document = .ok edge) :
    edge.source < bound ∧ edge.target < bound := by
  obtain ⟨fields, _, h⟩ := bind_eq_ok.mp h
  obtain ⟨source, hsource, h⟩ := bind_eq_ok.mp h
  obtain ⟨target, htarget, h⟩ := bind_eq_ok.mp h
  cases h
  exact ⟨endpoint_lt hsource, endpoint_lt htarget⟩

theorem decodeAll_inside {place bound : Nat} {container : Container} {documents : List Json}
    {edges : List Edge} (h : decodeAll bound container place documents = .ok edges) :
    ∀ edge ∈ edges, edge.source < bound ∧ edge.target < bound := by
  induction documents generalizing place edges with
  | nil =>
      cases h
      simp
  | cons document rest ih =>
      obtain ⟨first, hfirst, h⟩ := bind_eq_ok.mp h
      obtain ⟨others, hothers, h⟩ := bind_eq_ok.mp h
      cases h
      intro edge hedge
      rcases List.mem_cons.mp hedge with rfl | hedge
      · exact decode_inside hfirst
      · exact ih hothers edge hedge

end Edge

/-! ## Blocks of graphs -/

namespace Arena

variable {arena : Arena}

/-- The graphs of a block stand in an arena from an index on. -/
def HasBlock (arena : Arena) (start : Nat) (block : List Subgraph) : Prop :=
  block <+: arena.graphs.drop start

theorem HasBlock.append {start : Nat} {first second : List Subgraph}
    (h : arena.HasBlock start (first ++ second)) :
    arena.HasBlock start first ∧ arena.HasBlock (start + first.length) second := by
  obtain ⟨behind, hbehind⟩ := h
  refine ⟨⟨second ++ behind, by rw [← hbehind, List.append_assoc]⟩, ⟨behind, ?_⟩⟩
  rw [← List.drop_drop, ← hbehind, List.append_assoc, List.drop_left]

theorem HasBlock.cons {start : Nat} {graph : Subgraph} {rest : List Subgraph}
    (h : arena.HasBlock start (graph :: rest)) :
    arena.graphs[start]? = some graph ∧ arena.HasBlock (start + 1) rest := by
  have hsplit : arena.HasBlock start ([graph] ++ rest) := h
  refine ⟨?_, hsplit.append.2⟩
  obtain ⟨behind, hbehind⟩ := h
  rw [← List.head?_drop, ← hbehind]
  rfl

end Arena

/-- The blocks that a decoder of nested graphs gives are in order wherever they are put. -/
def NestedDecoder.InOrder (nested : NestedDecoder) : Prop :=
  ∀ ⦃next : Nat⦄ ⦃location : Location⦄ ⦃fields : Fields⦄ ⦃block : List Subgraph⦄ (arena : Arena),
    nested next location fields = .ok block → arena.HasBlock next block →
      arena.InOrder next block.length [(next, some location)]

namespace State

variable {arena : Arena} {nested : NestedDecoder}

/-- The graphs below the nodes of a state are decoded as one block, in the order of their owners. -/
theorem decodeNodes_inOrder (hnested : nested.InOrder) {graph state next place : Nat}
    {documents : List Json} {nodes : List Node} {blocks : List Subgraph}
    (h : decodeNodes nested graph state next place documents = .ok (nodes, blocks))
    (hblocks : arena.HasBlock next blocks) :
    arena.InOrder next blocks.length
      (Arena.nestedRoots (ownersFrom graph state place nodes)) := by
  induction documents generalizing next place nodes blocks with
  | nil =>
      cases h
      exact .nil next
  | cons document rest ih =>
      obtain ⟨fields, _, h⟩ := bind_eq_ok.mp h
      obtain ⟨embedded, _, h⟩ := bind_eq_ok.mp h
      cases embedded with
      | none =>
          obtain ⟨⟨others, behind⟩, hrest, h⟩ := bind_eq_ok.mp h
          cases h
          have horder := ih hrest hblocks
          exact horder
      | some inner =>
          obtain ⟨block, hblock, h⟩ := bind_eq_ok.mp h
          obtain ⟨⟨others, behind⟩, hrest, h⟩ := bind_eq_ok.mp h
          cases h
          -- The graphs that this node brings stand in front of those of the nodes behind it.
          obtain ⟨hfirst, hbehind⟩ := hblocks.append
          rw [List.length_append]
          exact (hnested arena hblock hfirst).append (ih hrest hbehind)

/-- So are the graphs below a state, whose own edges run inside it. -/
theorem decode_inOrder (hnested : nested.InOrder) {graph next place : Nat} {document : Json}
    {state : State} {block : List Subgraph}
    (h : decode nested graph next place document = .ok (state, block))
    (hblock : arena.HasBlock next block) :
    state.EdgesInside ∧ arena.InOrder next block.length
      (Arena.nestedRoots (ownersFrom graph place 0 state.nodes)) := by
  obtain ⟨fields, _, h⟩ := bind_eq_ok.mp h
  obtain ⟨nodeDocuments, _, h⟩ := bind_eq_ok.mp h
  obtain ⟨edgeDocuments, _, h⟩ := bind_eq_ok.mp h
  obtain ⟨⟨nodes, blocks⟩, hnodes, h⟩ := bind_eq_ok.mp h
  obtain ⟨edges, hedges, h⟩ := bind_eq_ok.mp h
  cases h
  exact ⟨Edge.decodeAll_inside hedges, decodeNodes_inOrder hnested hnodes hblock⟩

theorem decodeAll_inOrder (hnested : nested.InOrder) {graph next place : Nat}
    {documents : List Json} {states : List State} {blocks : List Subgraph}
    (h : decodeAll nested graph next place documents = .ok (states, blocks))
    (hblocks : arena.HasBlock next blocks) :
    (∀ state ∈ states, state.EdgesInside) ∧ arena.InOrder next blocks.length
      (Arena.nestedRoots (Subgraph.ownersFrom graph place states)) := by
  induction documents generalizing next place states blocks with
  | nil =>
      cases h
      exact ⟨by simp, .nil next⟩
  | cons document rest ih =>
      obtain ⟨⟨state, block⟩, hstate, h⟩ := bind_eq_ok.mp h
      obtain ⟨⟨others, behind⟩, hrest, h⟩ := bind_eq_ok.mp h
      cases h
      obtain ⟨hblock, hbehind⟩ := hblocks.append
      obtain ⟨hedges, hfirst⟩ := decode_inOrder hnested hstate hblock
      obtain ⟨hothers, horder⟩ := ih hrest hbehind
      refine ⟨by simpa using ⟨hedges, hothers⟩, ?_⟩
      rw [Subgraph.ownersFrom_cons, Arena.nestedRoots_append, List.length_append]
      exact hfirst.append horder

end State

namespace Subgraph

variable {arena : Arena}

/-- A graph is decoded with the graphs below it as one block, itself first. -/
theorem decodeWith_inOrder {nested : NestedDecoder} (hnested : nested.InOrder) {id : Nat}
    {owner : Option Location} {fields : Fields} {block : List Subgraph}
    (h : decodeWith nested id owner fields = .ok block) (hblock : arena.HasBlock id block) :
    arena.InOrder id block.length [(id, owner)] := by
  obtain ⟨_, _, h⟩ := bind_eq_ok.mp h
  obtain ⟨stateDocuments, _, h⟩ := bind_eq_ok.mp h
  obtain ⟨edgeDocuments, _, h⟩ := bind_eq_ok.mp h
  obtain ⟨⟨states, blocks⟩, hstates, h⟩ := bind_eq_ok.mp h
  obtain ⟨edges, hedges, h⟩ := bind_eq_ok.mp h
  cases h
  obtain ⟨hgraph, hblocks⟩ := hblock.cons
  obtain ⟨hwithin, horder⟩ := State.decodeAll_inOrder hnested hstates hblocks
  exact .root hgraph ⟨Edge.decodeAll_inside hedges, hwithin⟩ horder

/-- The decoder descends with one step of fuel less, which is what the induction follows. -/
theorem decodeWithin_inOrder {fuel id : Nat} {owner : Option Location} {fields : Fields}
    {block : List Subgraph} (h : decodeWithin fuel id owner fields = .ok block)
    (hblock : arena.HasBlock id block) : arena.InOrder id block.length [(id, owner)] := by
  induction fuel generalizing arena id owner fields block with
  | zero => cases h
  | succ fuel ih =>
      refine decodeWith_inOrder ?_ h hblock
      intro next location inner block arena hinner hfound
      exact ih hinner hfound

/-- The decoder lays a graph and all below it out as one tree in order. -/
theorem decode_inOrder {id : Nat} {owner : Option Location} {fields : Fields}
    {block : List Subgraph} (h : decode id owner fields = .ok block)
    (hblock : arena.HasBlock id block) : arena.InOrder id block.length [(id, owner)] :=
  decodeWithin_inOrder h hblock

end Subgraph

/-! ## Single containers -/

namespace State

variable {nested : NestedDecoder} {P : Subgraph → Prop}

theorem decode_eq_ok {graph next place : Nat} {document : Json} {state : State}
    {block : List Subgraph} (h : decode nested graph next place document = .ok (state, block)) :
    ∃ nodeDocuments edgeDocuments,
      decodeNodes nested graph place next 0 nodeDocuments = .ok (state.nodes, block) ∧
      Edge.decodeAll state.nodes.length (.state graph place) 0 edgeDocuments =
        .ok state.edges := by
  obtain ⟨fields, _, h⟩ := bind_eq_ok.mp h
  obtain ⟨nodeDocuments, _, h⟩ := bind_eq_ok.mp h
  obtain ⟨edgeDocuments, _, h⟩ := bind_eq_ok.mp h
  obtain ⟨⟨nodes, blocks⟩, hnodes, h⟩ := bind_eq_ok.mp h
  obtain ⟨edges, hedges, h⟩ := bind_eq_ok.mp h
  cases h
  exact ⟨nodeDocuments, edgeDocuments, hnodes, hedges⟩

theorem exists_decode {graph next place : Nat} {documents : List Json} {states : List State}
    {blocks : List Subgraph}
    (h : decodeAll nested graph next place documents = .ok (states, blocks)) :
    ∀ state ∈ states, ∃ next place document block,
      decode nested graph next place document = .ok (state, block) := by
  induction documents generalizing next place states blocks with
  | nil =>
      cases h
      simp
  | cons document rest ih =>
      obtain ⟨⟨first, block⟩, hfirst, h⟩ := bind_eq_ok.mp h
      obtain ⟨⟨others, behind⟩, hrest, h⟩ := bind_eq_ok.mp h
      cases h
      intro state hstate
      rcases List.mem_cons.mp hstate with rfl | hstate
      · exact ⟨_, _, _, _, hfirst⟩
      · exact ih hrest state hstate

/-- What holds of every graph the nested decoder returns holds of every graph below the nodes. -/
theorem forall_decodeNodes
    (hnested : ∀ next location inner block, nested next location inner = .ok block →
      ∀ graph ∈ block, P graph) {graph state next place : Nat} {documents : List Json}
    {nodes : List Node} {blocks : List Subgraph}
    (h : decodeNodes nested graph state next place documents = .ok (nodes, blocks)) :
    ∀ inner ∈ blocks, P inner := by
  induction documents generalizing next place nodes blocks with
  | nil =>
      cases h
      simp
  | cons document rest ih =>
      obtain ⟨fields, _, h⟩ := bind_eq_ok.mp h
      obtain ⟨embedded, _, h⟩ := bind_eq_ok.mp h
      cases embedded with
      | none =>
          obtain ⟨⟨others, behind⟩, hrest, h⟩ := bind_eq_ok.mp h
          cases h
          exact ih hrest
      | some inner =>
          obtain ⟨block, hblock, h⟩ := bind_eq_ok.mp h
          obtain ⟨⟨others, behind⟩, hrest, h⟩ := bind_eq_ok.mp h
          cases h
          exact List.forall_mem_append.mpr ⟨hnested _ _ _ _ hblock, ih hrest⟩

theorem forall_decodeAll
    (hnested : ∀ next location inner block, nested next location inner = .ok block →
      ∀ graph ∈ block, P graph) {graph next place : Nat} {documents : List Json}
    {states : List State} {blocks : List Subgraph}
    (h : decodeAll nested graph next place documents = .ok (states, blocks)) :
    ∀ inner ∈ blocks, P inner := by
  induction documents generalizing next place states blocks with
  | nil =>
      cases h
      simp
  | cons document rest ih =>
      obtain ⟨⟨state, block⟩, hstate, h⟩ := bind_eq_ok.mp h
      obtain ⟨⟨others, behind⟩, hrest, h⟩ := bind_eq_ok.mp h
      cases h
      obtain ⟨_, _, hnodes, _⟩ := decode_eq_ok hstate
      exact List.forall_mem_append.mpr ⟨forall_decodeNodes hnested hnodes, ih hrest⟩

end State

namespace Subgraph

/-- What a graph is decoded from: its own fields, its states and its edges. -/
structure DecodedFrom (nested : NestedDecoder) (id : Nat) (fields : Fields) (graph : Subgraph) :
    Prop where
  kind : checkKind fields = .ok ()
  states : ∃ documents blocks,
    State.decodeAll nested id (id + 1) 0 documents = .ok (graph.states, blocks)
  edges : ∃ documents,
    Edge.decodeAll graph.states.length (.graph id) 0 documents = .ok graph.edges
  fields : graph.fields = (fields.without "nodes").without "edges"

/-- What holds of every graph that is decoded from members of its own holds of all graphs of a
block. -/
theorem forall_decodeWithin {P : Subgraph → Prop}
    (h : ∀ nested id fields graph, DecodedFrom nested id fields graph → P graph) {fuel id : Nat}
    {owner : Option Location} {fields : Fields} {block : List Subgraph}
    (hblock : decodeWithin fuel id owner fields = .ok block) : ∀ graph ∈ block, P graph := by
  induction fuel generalizing id owner fields block with
  | zero => cases hblock
  | succ fuel ih =>
      obtain ⟨_, hkind, hblock⟩ := bind_eq_ok.mp hblock
      obtain ⟨stateDocuments, _, hblock⟩ := bind_eq_ok.mp hblock
      obtain ⟨edgeDocuments, _, hblock⟩ := bind_eq_ok.mp hblock
      obtain ⟨⟨states, blocks⟩, hstates, hblock⟩ := bind_eq_ok.mp hblock
      obtain ⟨edges, hedges, hblock⟩ := bind_eq_ok.mp hblock
      cases hblock
      refine List.forall_mem_cons.mpr ⟨?_, ?_⟩
      · exact h _ id fields _ ⟨hkind, ⟨_, _, hstates⟩, ⟨_, hedges⟩, rfl⟩
      · exact State.forall_decodeAll (fun _ _ _ _ hinner => ih hinner) hstates

end Subgraph

/-- A decoded arena is well formed. -/
theorem Arena.ofJson_wellFormed {document : Json} {arena : Arena}
    (h : ofJson document = .ok arena) : arena.WellFormed := by
  obtain ⟨fields, _, h⟩ := bind_eq_ok.mp h
  obtain ⟨graphs, hgraphs, h⟩ := bind_eq_ok.mp h
  cases h
  exact (Subgraph.decode_inOrder hgraphs (List.prefix_rfl)).wellFormed

end DataflowEditor
