import DataflowEditor.Proofs.Graph.Addressing
import DataflowEditor.Proofs.Graph.Kinds

/-! # Ends of edges

An edge is written with its ends as text and read again if they are words. The decoder accepts no
other ends, whatever the lengths of the lists that they point into, and no edit raises the end of an
edge that is there. So the ends fit words in every arena that a program comes to, as long as new
edges join elements that were found by an address.
-/

namespace DataflowEditor

def Edge.FitsWord (edge : Edge) : Prop :=
  edge.source < wordCount ∧ edge.target < wordCount

def State.EndsFit (state : State) : Prop :=
  ∀ edge ∈ state.edges, edge.FitsWord

/-- The ends of all edges of a graph and of its states fit words. -/
structure Subgraph.EndsFit (graph : Subgraph) : Prop where
  between : ∀ edge ∈ graph.edges, edge.FitsWord
  within : ∀ state ∈ graph.states, state.EndsFit

def Arena.EndsFit (arena : Arena) : Prop :=
  ∀ graph ∈ arena.graphs, graph.EndsFit

/-! ## Decoded edges -/

namespace Edge

theorem decodeAll_fits {place bound : Nat} {container : Container} {documents : List Json}
    {edges : List Edge} (h : decodeAll bound container place documents = .ok edges) :
    ∀ edge ∈ edges, edge.FitsWord := by
  induction documents generalizing place edges with
  | nil =>
      cases h
      simp
  | cons document rest ih =>
      obtain ⟨first, hfirst, h⟩ := bind_eq_ok.mp h
      obtain ⟨others, hothers, h⟩ := bind_eq_ok.mp h
      cases h
      obtain ⟨fields, _, hfirst⟩ := bind_eq_ok.mp hfirst
      obtain ⟨source, hsource, hfirst⟩ := bind_eq_ok.mp hfirst
      obtain ⟨target, htarget, hfirst⟩ := bind_eq_ok.mp hfirst
      cases hfirst
      have hword : ∀ {key : String} {index : Nat},
          (fields.value? key).bind Json.asIndex? = some index → index < wordCount := by
        intro key index hindex
        obtain ⟨value, _, hvalue⟩ := Option.bind_eq_some_iff.mp hindex
        exact Json.asIndex?_lt hvalue
      refine List.forall_mem_cons.mpr ⟨⟨?_, ?_⟩, ih hothers⟩
      · exact hword (endpoint_index hsource)
      · exact hword (endpoint_index htarget)

theorem rename_fits {removed : Nat} {edges : List Edge} (h : ∀ edge ∈ edges, edge.FitsWord) :
    ∀ edge ∈ edges.filterMap (rename (shiftPlace removed)), edge.FitsWord := by
  have hlower : ∀ place next, shiftPlace removed place = some next → next ≤ place := by
    intro place next hnext
    grind [shiftPlace]
  intro edge hedge
  obtain ⟨original, horiginal, hrenamed⟩ := List.mem_filterMap.mp hedge
  obtain ⟨hsource, htarget⟩ := rename_eq_some hrenamed
  obtain ⟨hfirst, hsecond⟩ := h original horiginal
  exact ⟨Nat.lt_of_le_of_lt (hlower _ _ hsource) hfirst,
    Nat.lt_of_le_of_lt (hlower _ _ htarget) hsecond⟩

theorem append_fits {edges : List Edge} {source target : Nat} {fields : Fields}
    (h : ∀ edge ∈ edges, edge.FitsWord) (hends : source < wordCount ∧ target < wordCount) :
    ∀ edge ∈ edges ++ [⟨source, target, fields⟩], edge.FitsWord :=
  List.forall_mem_append.mpr ⟨h, List.forall_mem_singleton.mpr hends⟩

end Edge

/-- All edges of a decoded graph fit. -/
theorem Subgraph.DecodedFrom.endsFit {nested : NestedDecoder} {id : Nat} {fields : Fields}
    {graph : Subgraph} (h : DecodedFrom nested id fields graph) : graph.EndsFit := by
  obtain ⟨_, hedges⟩ := h.edges
  obtain ⟨_, _, hstates⟩ := h.states
  refine ⟨Edge.decodeAll_fits hedges, fun state hstate => ?_⟩
  obtain ⟨_, _, _, _, hdecode⟩ := State.exists_decode hstates state hstate
  obtain ⟨_, _, _, hinner⟩ := State.decode_eq_ok hdecode
  exact Edge.decodeAll_fits hinner

namespace Arena

variable {arena : Arena}

theorem ofJson_endsFit {document : Json} (h : ofJson document = .ok arena) : arena.EndsFit := by
  obtain ⟨fields, _, h⟩ := bind_eq_ok.mp h
  obtain ⟨graphs, hgraphs, h⟩ := bind_eq_ok.mp h
  cases h
  exact Subgraph.forall_decodeWithin (fun _ _ _ _ hgraph => hgraph.endsFit) hgraphs

/-- Short lists leave no room for a high end. -/
theorem CountsBelow.endsFit (hcounts : arena.CountsBelow wordCount) (h : arena.WellFormed) :
    arena.EndsFit := by
  intro graph hgraph
  obtain ⟨hstates, _, hwithin⟩ := hcounts.2 graph hgraph
  have hinside := h.edges graph hgraph
  refine ⟨fun edge hedge => ?_, fun state hstate edge hedge => ?_⟩
  · obtain ⟨hsource, htarget⟩ := hinside.between edge hedge
    exact ⟨hsource.trans hstates, htarget.trans hstates⟩
  · obtain ⟨hsource, htarget⟩ := hinside.within state hstate edge hedge
    exact ⟨hsource.trans (hwithin state hstate).1, htarget.trans (hwithin state hstate).1⟩

/-! ## Edits -/

/-- A change that keeps the edges of states fitting keeps those of the arena fitting. -/
theorem EndsFit.modifyState (h : arena.EndsFit) {id place : Nat} {change : State → State}
    (hchange : ∀ state : State, state.EndsFit → (change state).EndsFit) :
    (arena.modifyState id place change).EndsFit :=
  forall_modifyState h (fun _ hgraph => hgraph.within) hchange
    fun _ _ hgraph hstates => ⟨hgraph.between, hstates⟩

theorem EndsFit.eraseNode (h : arena.EndsFit) (location : Location) :
    (arena.modifyState location.graph location.state (·.eraseNode location.node)).EndsFit := by
  refine h.modifyState fun state hstate => ?_
  exact Edge.rename_fits hstate

theorem EndsFit.renumber (h : arena.EndsFit) {met : List Nat} (hreach : arena.Reaches met) :
    arena.renumber.EndsFit := by
  refine hreach.forall_renumber h fun graph name owner hfits => ⟨hfits.between, ?_⟩
  intro state hstate
  obtain ⟨original, horiginal, rfl⟩ := List.mem_map.mp hstate
  exact hfits.within original horiginal

end Arena

/-- The ends of the edge that an edit adds fit words. -/
def Edit.EndsFit : Edit → Prop
  | .connectNodes _ _ source target _ => source < wordCount ∧ target < wordCount
  | .connectStates _ source target _ => source < wordCount ∧ target < wordCount
  | _ => True

namespace Arena

variable {arena : Arena}

/-- Every edit whose own ends fit keeps the edges of a well-formed arena fitting. -/
theorem EndsFit.effect (h : arena.EndsFit) (hformed : arena.WellFormed) {edit : Edit}
    (hfits : edit.EndsFit) {result : Arena} {place : Option Nat}
    (heffect : arena.Effect edit result place) : result.EndsFit := by
  cases heffect with
  | pushState _ =>
      refine forall_modifyGraph h fun graph hgraph => ⟨(h graph hgraph).between, ?_⟩
      refine List.forall_mem_append.mpr ⟨(h graph hgraph).within, ?_⟩
      exact List.forall_mem_singleton.mpr fun edge hedge => absurd hedge List.not_mem_nil
  | pushNode _ _ => exact h.modifyState fun state hstate => hstate
  | @pushNestedNode id place fields inner state block hstate hblock =>
      -- Only here do edges come in from a document, and the decoder has checked their ends.
      have hgrown : (Arena.mk (arena.graphs ++ block)).EndsFit :=
        List.forall_mem_append.mpr
          ⟨h, Subgraph.forall_decodeWithin (fun _ _ _ _ hgraph => hgraph.endsFit) hblock⟩
      have hpushed : ((Arena.mk (arena.graphs ++ block)).modifyState id place
          (·.pushNode ⟨some arena.graphs.length, fields⟩)).EndsFit :=
        hgrown.modifyState fun state hstate => hstate
      obtain ⟨met, _, hreach, _⟩ := hformed.reaches_pushNode hstate fields hblock
      exact hpushed.renumber hreach
  | connectNodes _ _ _ => exact h.modifyState fun state hstate => Edge.append_fits hstate hfits
  | connectStates _ _ _ =>
      exact forall_modifyGraph h fun graph hgraph =>
        ⟨Edge.append_fits (h graph hgraph).between hfits, (h graph hgraph).within⟩
  | @eraseGraph _ owner _ _ _ =>
      obtain ⟨met, _, hreach⟩ := hformed.reaches_eraseNode owner
      exact (h.eraseNode owner).renumber hreach
  | @eraseState id place _ _ =>
      obtain ⟨met, _, hreach⟩ := hformed.reaches_eraseState id place
      refine EndsFit.renumber ?_ hreach
      exact forall_modifyGraph h fun graph hgraph =>
        ⟨Edge.rename_fits (h graph hgraph).between, fun state hstate =>
          (h graph hgraph).within state (List.mem_of_mem_eraseIdx hstate)⟩
  | @eraseNode location _ _ =>
      obtain ⟨met, _, hreach⟩ := hformed.reaches_eraseNode location
      exact (h.eraseNode location).renumber hreach
  | eraseWithin _ _ =>
      exact h.modifyState fun state hstate edge hedge =>
        hstate edge (List.mem_of_mem_eraseIdx hedge)
  | eraseBetween _ _ =>
      exact forall_modifyGraph h fun graph hgraph =>
        ⟨fun edge hedge => (h graph hgraph).between edge (List.mem_of_mem_eraseIdx hedge),
          (h graph hgraph).within⟩
  | uninstrument =>
      intro graph hgraph
      obtain ⟨original, horiginal, rfl⟩ := List.mem_map.mp hgraph
      refine ⟨(h original horiginal).between, fun state hstate => ?_⟩
      obtain ⟨measured, hmeasured, rfl⟩ := List.mem_map.mp hstate
      exact (h original horiginal).within measured hmeasured

end Arena

end DataflowEditor
