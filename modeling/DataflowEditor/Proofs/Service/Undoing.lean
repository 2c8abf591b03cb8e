import DataflowEditor.Proofs.Graph.Restoring
import DataflowEditor.Proofs.Service.Extension
import DataflowEditor.Proofs.Service.Removal

/-! # Taking back an insertion

The answer to an insertion says how it is taken back: its graph is sent with its addresses, and what
comes back is the graph as it was before, in the form in which it is always written. An edge cannot
be taken back, since it has no address, nor can a data node, which may have changed its graph.
-/

namespace DataflowEditor

/-- Insertions of this kind leave all fields as they are, and give the addresses of what they
add. -/
def InsertKind.Reversible (kind : InsertKind) : Prop :=
  kind ∈ [.state, .node .map, .node .consume, .node .tasklet, .node .nested]

instance : DecidablePred InsertKind.Reversible := fun kind =>
  inferInstanceAs (Decidable (kind ∈ _))

theorem InsertKind.Reversible.wellNamed {kind : InsertKind} (h : kind.Reversible) :
    kind.WellNamed := by
  simp only [Reversible, List.mem_cons, List.not_mem_nil, or_false] at h
  rcases h with rfl | rfl | rfl | rfl | rfl <;> decide

namespace Arena

variable {arena before after : Arena} {request : InsertionRequest} {kind : InsertKind}
  {elements : List Element}

/-- Elements go under their own addresses. -/
theorem WellFormed.removeAddresses_toText (h : arena.WellFormed)
    (hgraph : ∀ element ∈ elements, ∀ id, element ≠ .graph id)
    (hlocated : ∀ element ∈ elements, ∃ holder,
      arena.locateText element.toText = .ok ⟨element, holder⟩) :
    arena.removeAddresses (elements.map Element.toText) =
      .ok (arena.pruned fun element => decide (element ∈ elements)).renumber := by
  have htarget : ∀ element ∈ elements, arena.removalTarget element.toText = .ok element := by
    intro element helement
    obtain ⟨holder, hfound⟩ := hlocated element helement
    exact h.removalTarget_eq_ok.mpr ⟨_, hfound, .itself (hgraph element helement)⟩
  have haddresses : ∀ address ∈ elements.map Element.toText,
      ∃ element ∈ elements, arena.removalTarget address = .ok element :=
    List.forall_mem_map.mpr fun element helement => ⟨element, helement, htarget element helement⟩
  -- Every address leads back to its element, and no two elements share one.
  obtain ⟨targets, hmapped, hmem⟩ := mapM_eq_ok fun address haddress =>
    (haddresses address haddress).imp fun _ => And.right
  have hsame : ∀ element, element ∈ targets ↔ element ∈ elements := by
    intro element
    rw [hmem]
    constructor
    · rintro ⟨address, haddress, hnamed⟩
      obtain ⟨found, hfound, hagain⟩ := haddresses address haddress
      obtain rfl := Except.ok.inj (hnamed.symm.trans hagain)
      exact hfound
    · exact fun helement => ⟨_, List.mem_map_of_mem helement, htarget element helement⟩
  have hlive : ∀ element ∈ elements, arena.contains element = true := by
    intro element helement
    obtain ⟨holder, hfound⟩ := hlocated element helement
    exact (h.located_live hfound).1
  obtain ⟨hremoved, _⟩ := h.removeAll_eq
    (fun element helement => hlive element ((hsame element).mp (mem_sorted.mp helement)))
    (fun element helement => hgraph element ((hsame element).mp (mem_sorted.mp helement)))
    (pairwise_removedBefore targets)
  rw [removeAddresses, hmapped, ok_bind, hremoved]
  simp only [mem_sorted, hsame]

/-! ## What an insertion adds can be taken out -/

/-- Most kinds list all that is new, and no graph gets a new number. -/
theorem Extends.undoable (h : before.Extends after (fun id => id) none elements)
    (hplain : ∀ element ∈ elements, ∃ id place, element = .state id place ∨
      ∃ index, element = .node id place index) :
    before.Undoable after (fun id => id) elements elements where
  extension := h
  root := rfl
  apart := fun _ _ heq => heq
  listed := fun element => by
    refine (and_iff_left_of_imp fun helement id hgraph => ?_).symm
    obtain ⟨_, _, rfl | ⟨_, rfl⟩⟩ := hplain element helement <;> cases hgraph
  unjoined := fun id place index helement => by
    obtain ⟨_, _, hstate | ⟨_, hnode⟩⟩ := hplain _ helement
    · cases hstate
    · cases hnode

/-- What a reversible insertion gained can be undone. -/
theorem Gains.undoable (h : before.Gains request after kind elements) (hkind : kind.Reversible) :
    ∃ name new, before.Undoable after name new elements := by
  cases h with
  | state _ _ _ hextends | plain _ _ _ hextends | scope _ _ _ hextends =>
      exact ⟨_, _, hextends.undoable (by simp)⟩
  | nested _ _ hlt _ hextends =>
      -- The new graph is not listed, and goes with the node that owns it.
      refine ⟨_, _, hextends, if_pos (by omega), fun _ _ => numberWith_injective, fun element => ?_,
        by simp⟩
      grind
  | access | joinNodes | joinStates => exact absurd hkind (by decide)

/-- The nodes of a state leave room for two more. -/
theorem CountsBelow.node_fits (h : arena.CountsBelow (halfWordCount - 1)) {id place index : Nat}
    {state : State} (hstate : arena.state id place = .ok state)
    (hindex : index ≤ state.nodes.length + 1) : (Element.node id place index).FitsWords := by
  obtain ⟨graph, hgraph, hplace⟩ := state_eq_ok.mp hstate
  obtain ⟨hstates, _, hwithin⟩ := h.2 graph (List.mem_of_getElem? hgraph)
  have hid := (List.getElem?_eq_some_iff.mp hgraph).1.trans h.1
  have hbelow := (List.getElem?_eq_some_iff.mp hplace).1.trans hstates
  have hnodes := (hwithin state (List.mem_of_getElem? hplace)).1
  refine ⟨?_, ?_, ?_⟩ <;> omega

/-- Every gained element has an address. -/
theorem Gains.fitsWords (h : before.Gains request after kind elements)
    (hcounts : before.CountsBelow (halfWordCount - 1)) :
    ∀ element ∈ elements, element.FitsWords := by
  cases h with
  | @state parent id graph _ _ hgraph =>
      have hid := (List.getElem?_eq_some_iff.mp hgraph).1.trans hcounts.1
      have hstates := (hcounts.2 graph (List.mem_of_getElem? hgraph)).1
      refine List.forall_mem_singleton.mpr ⟨?_, ?_⟩ <;> omega
  | scope _ _ hstate =>
      refine List.forall_mem_cons.mpr ⟨?_, List.forall_mem_singleton.mpr ?_⟩
      · exact hcounts.node_fits hstate (Nat.le_succ _)
      · exact hcounts.node_fits hstate (Nat.le_refl _)
  | plain _ _ hstate | nested _ hstate | access _ _ hstate =>
      exact List.forall_mem_singleton.mpr (hcounts.node_fits hstate (Nat.le_succ _))
  | joinNodes | joinStates => exact List.forall_mem_nil _

theorem Gains.isEmpty (h : before.Gains request after kind elements) (hkind : kind.Reversible) :
    elements.isEmpty = false := by
  cases h with
  | joinNodes | joinStates => exact absurd hkind (by decide)
  | _ => rfl

end Arena

/-! ## Requests -/

/-- An insertion is taken back by the removal of what its answer gives the addresses of. The places
in an address are signed words, and no list in memory is longer than they count. -/
theorem InsertionRequest.removal_restores {request : InsertionRequest} {arena : Arena}
    {kind : InsertKind} {answer : Inserted}
    (hgraph : readPayloadOrText request.graph = .ok arena)
    (hrefs : arena.ReferencesInside) (hcounts : arena.CountsBelow (halfWordCount - 1))
    (hkind : InsertKind.ofText? request.kind = some kind) (hreversible : kind.Reversible)
    (hrun : request.run = .ok answer) :
    ∃ document, RemovalRequest.run ⟨answer.graph, answer.addresses⟩ = .ok document ∧
      Json.Same document arena.toJson := by
  obtain ⟨before, found, after, elements, hread, hfound, hinsertion, rfl⟩ :=
    Change.insertion_eq_ok hrun
  obtain rfl := Except.ok.inj (hgraph.symm.trans hread)
  obtain rfl := Option.some.inj (hkind.symm.trans hfound)
  have hlegible := Arena.legible_of_readPayloadOrText hgraph
  have hagain := hinsertion.legible hlegible hreversible.wellNamed
  have hgains := hinsertion.gains hlegible.formed
  obtain ⟨name, new, hundoable⟩ := hgains.undoable hreversible
  have hbrings := hinsertion.brings hlegible.formed hagain
  have hremoved := (hagain.formed.of_outline Arena.outline_reread).removeAddresses_toText
    (fun element helement => ((hundoable.listed element).mp helement).2)
    (fun element helement => hbrings.located element helement
      (hgains.fitsWords hcounts element helement))
  rw [hundoable.grownBy.renumber_pruned hlegible.formed hrefs] at hremoved
  refine ⟨_, ?_, hundoable.grownBy.toJson_same⟩
  rw [RemovalRequest.run, hagain.readPayloadOrText_toJson, ok_bind, hgains.isEmpty hreversible,
    if_neg Bool.false_ne_true, hremoved]
  rfl

/-- A graph is put into a state with a scope, in front of the graph that the other state has. -/
def scopedInsertion : InsertionRequest :=
  ⟨.obj [("start_state", .nat 1), ("nodes", .arr [
      .obj [("scope_dict", .obj []), ("nodes", .arr [
        .obj [("type", .str "MapEntry"), ("scope_exit", .str "1")],
        .obj [("type", .str "MapExit"), ("scope_entry", .str "0")]])],
      .obj [("nodes", .arr [.obj [("type", .str "NestedSDFG"),
        ("attributes", .obj [("sdfg", .obj [("nodes", .arr [.obj []])])])]])]])],
    "NestedSDFG", some "0/0/-1/-1", none⟩

/-- The arena of the graph that `scopedInsertion` is about. -/
def scopedArena : Arena :=
  ⟨[⟨[⟨[⟨none, [("type", .str "MapEntry"), ("scope_exit", .str "1")]⟩,
        ⟨none, [("type", .str "MapExit"), ("scope_entry", .str "0")]⟩], [],
        [("scope_dict", .obj [])]⟩,
      ⟨[⟨some 1, [("type", .str "NestedSDFG"), ("attributes", .obj [])]⟩], [], []⟩],
      [], none, [("start_state", .nat 1)]⟩,
    ⟨[⟨[], [], []⟩], [], some ⟨0, 1, 0⟩, []⟩]⟩

theorem scopedInsertion_restored : readPayloadOrText scopedInsertion.graph = .ok scopedArena ∧
    scopedArena.ReferencesInside ∧ ∃ answer, scopedInsertion.run = .ok answer ∧
      answer.addresses = ["0/0/2/-1"] ∧
      ∃ document, RemovalRequest.run ⟨answer.graph, answer.addresses⟩ = .ok document ∧
        Json.Same document scopedArena.toJson := by
  have hgraph : readPayloadOrText scopedInsertion.graph = .ok scopedArena := by decide
  have hrefs : scopedArena.ReferencesInside := by decide
  have haddresses : scopedInsertion.run.map (·.addresses) = .ok ["0/0/2/-1"] := by
    decide +kernel
  cases hrun : scopedInsertion.run with
  | error failure => simp [hrun, Except.map] at haddresses
  | ok answer =>
      rw [hrun] at haddresses
      exact ⟨hgraph, hrefs, answer, rfl, Except.ok.inj haddresses,
        InsertionRequest.removal_restores hgraph hrefs (by decide) rfl (by decide) hrun⟩

end DataflowEditor
