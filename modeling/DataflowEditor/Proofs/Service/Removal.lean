import DataflowEditor.Proofs.Graph.Addressing
import DataflowEditor.Proofs.Graph.Detaching
import DataflowEditor.Proofs.Graph.Remaining
import DataflowEditor.Proofs.Service.Payload
import DataflowEditor.Service.Removal
import Mathlib.Data.List.Induction

/-! # Removal is simultaneous

The order of removal puts every element in front of all that it would move: it is still at its place
when its turn comes, and the graph it lies in still has its name. So the elements may be taken out
one after the other, and the outcome is the arena with all of them deleted at once. It depends on
which elements the addresses name, not on the order of the addresses or on repetitions.
-/

namespace DataflowEditor

/-! ## The order of removal -/

namespace Element

variable {a b c element : Element}

theorem removedBefore_total (a b : Element) : (a.removedBefore b || b.removedBefore a) = true := by
  grind [removedBefore]

theorem removedBefore_trans (a b c : Element) :
    a.removedBefore b = true → b.removedBefore c = true → a.removedBefore c = true := by
  grind [removedBefore]

theorem graphIndex_le_of_removedBefore (h : a.removedBefore b = true) :
    b.graphIndex ≤ a.graphIndex := by
  grind [removedBefore]

/-- Nothing that is removed before an element moves it. -/
theorem inPlace_of_removedBefore {gone : Element → Bool} (hgraph : ∀ id, element ≠ .graph id)
    (h : ∀ other, gone other = true → other.removedBefore element = true ∧ other ≠ element) :
    element.InPlace gone := by
  have hstays : ∀ other, ¬ (other.removedBefore element = true ∧ other ≠ element) →
      gone other = false := by
    intro other hnot
    by_contra hgone
    exact hnot (h other (by simpa using hgone))
  cases element with
  | graph id => exact absurd rfl (hgraph id)
  | state id place =>
      intro below hbelow
      apply hstays _
      grind [removedBefore, graphIndex, removalTurn, removalPlace]
  | node id place index =>
      refine ⟨fun other => hstays _ ?_, fun below hbelow => hstays _ ?_⟩
      · grind [removedBefore, graphIndex, removalTurn, removalPlace]
      · grind [removedBefore, graphIndex, removalTurn, removalPlace]
  | edge id place index =>
      cases place with
      | none =>
          refine ⟨fun other => hstays _ ?_, fun below hbelow => hstays _ ?_⟩
          · grind [removedBefore, graphIndex, removalTurn, removalPlace]
          · grind [removedBefore, graphIndex, removalTurn, removalPlace]
      | some place =>
          refine ⟨fun other => hstays _ ?_, fun other => hstays _ ?_,
            fun below hbelow => hstays _ ?_⟩
          · grind [removedBefore, graphIndex, removalTurn, removalPlace]
          · grind [removedBefore, graphIndex, removalTurn, removalPlace]
          · grind [removedBefore, graphIndex, removalTurn, removalPlace]

end Element

theorem nodup_eraseDups (items : List Element) : items.eraseDups.Nodup := by
  induction items using List.reverseRecOn with
  | nil => exact List.nodup_nil
  | append_singleton front last ih =>
      rw [List.eraseDups_append]
      by_cases hlast : last ∈ front
      · simpa [List.removeAll, hlast] using ih
      · have hnot : last ∉ front.eraseDups := fun hmem => hlast (List.mem_eraseDups.mp hmem)
        simpa [List.removeAll, hlast, List.eraseDups_cons] using ih.concat hnot

/-- Sorted elements stand in the order of removal, each once. -/
theorem pairwise_removedBefore (targets : List Element) :
    (targets.eraseDups.mergeSort Element.removedBefore).Pairwise fun a b =>
      a.removedBefore b = true ∧ a ≠ b := by
  have hsorted := List.pairwise_mergeSort Element.removedBefore_trans Element.removedBefore_total
    targets.eraseDups
  have hnodup : (targets.eraseDups.mergeSort Element.removedBefore).Nodup :=
    (List.mergeSort_perm _ _).nodup_iff.mpr (nodup_eraseDups targets)
  exact hsorted.and hnodup

theorem mem_sorted {targets : List Element} {element : Element} :
    element ∈ targets.eraseDups.mergeSort Element.removedBefore ↔ element ∈ targets := by
  rw [List.mem_mergeSort, List.mem_eraseDups]

namespace Arena

variable {arena : Arena}

/-! ## Removing in order -/

/-- Live elements in the order of removal are erased without an error. Nothing is lost but what
pruning them all at once takes away. -/
theorem WellFormed.removeAll_eq (h : arena.WellFormed) {targets : List Element}
    (hlive : ∀ element ∈ targets, arena.contains element = true)
    (hgraph : ∀ element ∈ targets, ∀ id, element ≠ .graph id)
    (hsorted : targets.Pairwise fun a b => a.removedBefore b = true ∧ a ≠ b) :
    arena.removeAll targets =
        .ok (arena.pruned fun element => decide (element ∈ targets)).renumber ∧
      (arena.pruned fun element => decide (element ∈ targets)).renumber.WellFormed := by
  induction targets using List.reverseRecOn with
  | nil =>
      rw [pruned_of_none fun element => by simp, h.renumber_eq]
      exact ⟨rfl, h⟩
  | append_singleton front last ih =>
      obtain ⟨hfront, _, hbefore⟩ := List.pairwise_append.mp hsorted
      obtain ⟨hresult, hwellFormed⟩ := ih
        (fun element hmem => hlive element (List.mem_append_left _ hmem))
        (fun element hmem => hgraph element (List.mem_append_left _ hmem)) hfront
      have hmem : last ∈ front ++ [last] := List.mem_append_right _ List.mem_cons_self
      -- The removals so far have left the last element at its place, in a graph of the same name.
      have hearlier : ∀ other, decide (other ∈ front) = true →
          other.removedBefore last = true ∧ other ≠ last :=
        fun other hother => hbefore other (of_decide_eq_true hother) last List.mem_cons_self
      have hplace := Element.inPlace_of_removedBefore (hgraph last hmem) hearlier
      obtain ⟨graph, hfound, hhas⟩ := contains_iff_has.mp (hlive last hmem)
      obtain ⟨met, hsublist, hreach⟩ := h.reaches_pruned fun element => decide (element ∈ front)
      obtain ⟨hmet, hname⟩ := h.keeps_name hsublist hreach
        (List.getElem?_eq_some_iff.mp hfound).1 fun other hother =>
          Element.graphIndex_le_of_removedBefore (hearlier other hother).1
      have hstill :
          (arena.pruned fun element => decide (element ∈ front)).contains last = true := by
        refine contains_iff_has.mpr ⟨_, ?_, hhas.pruned hplace⟩
        rw [pruned_getElem?, hfound, Option.map_some]
      have hone : orElement (fun element => decide (element ∈ front)) last =
          fun element => decide (element ∈ front ++ [last]) := by
        funext element
        simp [orElement]
      have herased := hwellFormed.erase_eq (hreach.contains_renumber hmet hname hstill)
        (hgraph last hmem)
      rw [hreach.renumber_detach hmet hname, detach_pruned hplace, hone] at herased
      have hall : arena.removeAll (front ++ [last]) = .ok (arena.pruned fun element =>
          decide (element ∈ front ++ [last])).renumber := by
        rw [removeAll, List.foldlM_append, ← removeAll, hresult, ok_bind, List.foldlM_cons, herased]
        rfl
      exact ⟨hall, hwellFormed.erase herased⟩

/-! ## What addresses name -/

/-- An element is removed for itself, a graph by the node that owns it. -/
inductive StandsFor (arena : Arena) : Element → Element → Prop
  | itself {element : Element} : (∀ id, element ≠ .graph id) → StandsFor arena element element
  | owner {location : Location} {id : Nat} :
      arena.Owns location id → StandsFor arena (.graph id) (.ofLocation location)

/-- The elements that are removed for a list of addresses. -/
def Named (arena : Arena) (addresses : List String) (element : Element) : Prop :=
  ∃ address ∈ addresses, ∃ found, arena.locateText address = .ok found ∧
    arena.StandsFor found.element element

theorem standsFor_self {named element : Element} (h : ∀ id, named ≠ .graph id) :
    (.ok named : Except GraphError Element) = .ok element ↔ arena.StandsFor named element := by
  rw [Except.ok.injEq]
  constructor
  · rintro rfl
    exact .itself h
  · intro hstands
    cases hstands with
    | itself _ => rfl
    | owner _ => exact absurd rfl (h _)

/-- An address stands for what is removed: the element, or the owner of the graph it names. -/
theorem WellFormed.removalTarget_eq_ok (h : arena.WellFormed) {address : String}
    {element : Element} : arena.removalTarget address = .ok element ↔
      ∃ found, arena.locateText address = .ok found ∧ arena.StandsFor found.element element := by
  rw [removalTarget, bind_eq_ok]
  refine exists_congr fun found => and_congr_right fun _ => ?_
  obtain ⟨named, parent⟩ := found
  cases named with
  | graph id =>
      dsimp only
      constructor
      · intro htarget
        split at htarget
        next owner howner =>
          cases htarget
          exact .owner (h.recordedOwner_eq_some_iff.mp howner)
        next => cases htarget
      · intro hstands
        cases hstands with
        | itself hnot => exact absurd rfl (hnot id)
        | owner howns => rw [h.recordedOwner_eq_some_iff.mpr howns]; rfl
  | state id place => exact standsFor_self fun id => by simp
  | node id place index => exact standsFor_self fun id => by simp
  | edge id place index => exact standsFor_self fun id => by simp

/-- Whatever is not the root can be removed. -/
theorem WellFormed.exists_standsFor (h : arena.WellFormed) {element : Element}
    (hlive : arena.contains element = true) (hroot : element ≠ .graph 0) :
    ∃ target, arena.StandsFor element target := by
  cases element with
  | graph id =>
      obtain ⟨graph, hgraph⟩ := contains_graph.mp hlive
      have hpos : 0 < id := Nat.pos_of_ne_zero fun hzero => hroot (congrArg Element.graph hzero)
      obtain ⟨location, _, hunique⟩ := h.owned id hpos (List.getElem?_eq_some_iff.mp hgraph).1
      exact ⟨_, .owner ((hunique location).mpr rfl)⟩
  | state id place => exact ⟨_, .itself fun id => by simp⟩
  | node id place index => exact ⟨_, .itself fun id => by simp⟩
  | edge id place index => exact ⟨_, .itself fun id => by simp⟩

/-- What stands for a live element is live, and is no graph. -/
theorem StandsFor.live {element target : Element} (h : arena.StandsFor element target)
    (hlive : arena.contains element = true) :
    arena.contains target = true ∧ ∀ id, target ≠ .graph id := by
  cases h with
  | itself hnot => exact ⟨hlive, hnot⟩
  | @owner location id howns =>
      obtain ⟨node, hnode, _⟩ := howns
      obtain ⟨graph, state, hgraph, hstate, hindex⟩ := node_eq_ok.mp hnode
      refine ⟨contains_node.mpr ⟨graph, state, hgraph, hstate, ?_⟩, fun id => ?_⟩
      · exact (List.getElem?_eq_some_iff.mp hindex).1
      · rw [Element.ofLocation]
        simp

theorem mapM_eq_ok {α β ε : Type} {step : α → Except ε β} {items : List α}
    (h : ∀ item ∈ items, ∃ result, step item = .ok result) : ∃ results,
      items.mapM step = .ok results ∧
        ∀ result, result ∈ results ↔ ∃ item ∈ items, step item = .ok result := by
  induction items with
  | nil => exact ⟨[], rfl, by simp⟩
  | cons item rest ih =>
      obtain ⟨first, hfirst⟩ := h item List.mem_cons_self
      obtain ⟨others, hothers, hmem⟩ := ih fun item hitem => h item (List.mem_cons_of_mem _ hitem)
      refine ⟨first :: others, ?_, fun result => ?_⟩
      · rw [List.mapM_cons, hfirst, hothers]
        rfl
      · simp [hmem, hfirst, eq_comm]

theorem WellFormed.named_live (h : arena.WellFormed) {addresses : List String} {element : Element}
    (hnamed : arena.Named addresses element) :
    arena.contains element = true ∧ ∀ id, element ≠ .graph id := by
  obtain ⟨address, _, found, hlocated, hstands⟩ := hnamed
  exact hstands.live (h.located_live hlocated).1

open Classical in
/-- Whether an element is removed with those that addresses name. -/
noncomputable def goesWith (arena : Arena) (addresses : List String) (element : Element) : Bool :=
  decide (arena.Removed (arena.Named addresses) element)

/-- The test tells exactly what is removed along with the addresses. -/
theorem goesWith_tells (addresses : List String) :
    Tells (arena.goesWith addresses) (arena.Removed (arena.Named addresses)) := by
  intro element
  simp [goesWith]

/-- The elements that addresses name go at once, with all that is removed with them. -/
theorem WellFormed.removeAddresses_eq (h : arena.WellFormed) {addresses : List String}
    (hfound : ∀ address ∈ addresses, ∃ found,
      arena.locateText address = .ok found ∧ found.element ≠ .graph 0) :
    arena.removeAddresses addresses = .ok (arena.deleted (arena.goesWith addresses)) := by
  have htargets : ∀ address ∈ addresses, ∃ target, arena.removalTarget address = .ok target := by
    intro address haddress
    obtain ⟨found, hlocated, hroot⟩ := hfound address haddress
    obtain ⟨target, hstands⟩ := h.exists_standsFor (h.located_live hlocated).1 hroot
    exact ⟨target, h.removalTarget_eq_ok.mpr ⟨found, hlocated, hstands⟩⟩
  obtain ⟨targets, hmapped, hmem⟩ := mapM_eq_ok htargets
  have hnamed : ∀ element, element ∈ targets ↔ arena.Named addresses element := by
    intro element
    simp only [hmem, h.removalTarget_eq_ok, Named]
  obtain ⟨hremoved, _⟩ := h.removeAll_eq
    (fun element helement => (h.named_live ((hnamed element).mp (mem_sorted.mp helement))).1)
    (fun element helement => (h.named_live ((hnamed element).mp (mem_sorted.mp helement))).2)
    (pairwise_removedBefore targets)
  have hgone : Tells (fun element => decide (element ∈
      targets.eraseDups.mergeSort Element.removedBefore)) (arena.Named addresses) := by
    intro element
    rw [decide_eq_true_iff, mem_sorted, hnamed]
  rw [removeAddresses, hmapped, ok_bind, hremoved, h.renumber_pruned hgone
    (goesWith_tells addresses) fun id hnames => (h.named_live hnames).2 id rfl]

end Arena

/-! ## Requests -/

namespace RemovalRequest

/-- If every address leads to an element other than the root, a removal answers the graph with all
of them deleted at once: what does not go with them remains. The same addresses in another order, or
repeated, get the same answer. -/
theorem run_eq_deleted {request : RemovalRequest} {arena : Arena}
    (hgraph : readPayloadOrText request.graph = .ok arena)
    (hfound : ∀ address ∈ request.addresses, ∃ found,
      arena.locateText address = .ok found ∧ found.element ≠ .graph 0) :
    request.run = .ok (arena.deleted (arena.goesWith request.addresses)).toJson ∧
      arena.Remains (arena.goesWith request.addresses)
        (arena.deleted (arena.goesWith request.addresses)) ∧
      ∀ others, (∀ address, address ∈ others ↔ address ∈ request.addresses) →
        RemovalRequest.run ⟨request.graph, others⟩ = request.run := by
  have hwellFormed := readPayloadOrText_wellFormed hgraph
  -- The addresses matter only through the set of elements that they name.
  have hrun : ∀ addresses, (∀ address, address ∈ addresses ↔ address ∈ request.addresses) →
      RemovalRequest.run ⟨request.graph, addresses⟩ =
        .ok (arena.deleted (arena.goesWith request.addresses)).toJson := by
    intro addresses hsame
    have hremoved := hwellFormed.removeAddresses_eq fun address haddress =>
      hfound address ((hsame address).mp haddress)
    have hnamed : arena.Named addresses = arena.Named request.addresses := by
      funext element
      simp only [Arena.Named, hsame]
    have hgoes : arena.goesWith addresses = arena.goesWith request.addresses := by
      funext element
      rw [Arena.goesWith, Arena.goesWith, hnamed]
    rw [run, hgraph, ok_bind, hremoved, hgoes]
    rfl
  have hself := hrun request.addresses fun _ => Iff.rfl
  have hremains := hwellFormed.deleted_remains (Arena.goesWith_tells request.addresses)
    fun id hnames => (hwellFormed.named_live hnames).2 id rfl
  exact ⟨hself, hremains, fun others hsame => (hrun others hsame).trans hself.symm⟩

/-- Remove a state of a nested graph, the graph itself, its owner and an edge of the owner. -/
def nestedRemoval : RemovalRequest :=
  ⟨Arena.nestedDocument, ["1/0/-1/-1", "0/0/0/-1", "1/-1/-1/-1", "0/0/-1/0", "0/0/0/-1"]⟩

theorem nestedRemoval_run : readPayloadOrText nestedRemoval.graph = .ok Arena.nestedArena ∧
    (∀ address ∈ nestedRemoval.addresses, ∃ found,
      Arena.nestedArena.locateText address = .ok found ∧ found.element ≠ .graph 0) ∧
    nestedRemoval.run = .ok (Arena.nestedArena.deleted
      (Arena.nestedArena.goesWith nestedRemoval.addresses)).toJson ∧
    Arena.nestedArena.Remains (Arena.nestedArena.goesWith nestedRemoval.addresses)
      (Arena.nestedArena.deleted (Arena.nestedArena.goesWith nestedRemoval.addresses)) ∧
    RemovalRequest.run ⟨nestedRemoval.graph, nestedRemoval.addresses.reverse⟩ =
      nestedRemoval.run := by
  have hgraph : readPayloadOrText nestedRemoval.graph = .ok Arena.nestedArena := by decide
  have hfound : ∀ address ∈ nestedRemoval.addresses, ∃ found,
      Arena.nestedArena.locateText address = .ok found ∧ found.element ≠ .graph 0 := by
    intro address haddress
    have hlocated : ∀ address ∈ nestedRemoval.addresses,
        (Arena.nestedArena.locateText address).toOption.any (·.element ≠ .graph 0) = true := by
      decide
    cases hfound : Arena.nestedArena.locateText address with
    | error error => simpa [hfound, Except.toOption] using hlocated address haddress
    | ok found =>
        refine ⟨found, rfl, ?_⟩
        simpa [hfound, Except.toOption] using hlocated address haddress
  obtain ⟨hrun, hremains, hsame⟩ := run_eq_deleted hgraph hfound
  exact ⟨hgraph, hfound, hrun, hremains, hsame _ fun _ => List.mem_reverse⟩

end RemovalRequest

end DataflowEditor
