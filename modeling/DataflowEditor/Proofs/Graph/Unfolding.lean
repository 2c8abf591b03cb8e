import DataflowEditor.Proofs.Graph.Traversal

/-! # Unfolding an arena

An arena stands for the nest that comes out when every node is given the graph it refers to. Where
the graphs below the root form a tree, renumbering keeps that nest: it puts the graphs of the tree
in the order of a traversal, drops all others, and changes nothing but the names of graphs and the
owners on record.
-/

namespace DataflowEditor

open Relation

/-! ## Nests -/

/-- A node with what it nests in place of a reference. -/
structure NestedNode (Inner : Type) where
  nested : Option Inner
  fields : Fields

structure NestedState (Inner : Type) where
  nodes : List (NestedNode Inner)
  edges : List Edge
  fields : Fields

/-- A graph with everything inside it. Where the unfolding ends or a reference leads nowhere it is
cut off. -/
inductive Nest
  | cut
  | graph (states : List (NestedState Nest)) (edges : List Edge) (fields : Fields)

/-- The graph with what its references stand for. -/
def Subgraph.nest (graph : Subgraph) (inner : Nat → Nest) : Nest :=
  .graph
    (graph.states.map fun state =>
      ⟨state.nodes.map fun node => ⟨node.nested.map inner, node.fields⟩, state.edges,
        state.fields⟩)
    graph.edges graph.fields

/-- What a graph unfolds to depends on its children only. -/
theorem Subgraph.nest_congr {graph : Subgraph} {inner other : Nat → Nest}
    (h : ∀ id ∈ graph.children, inner id = other id) : graph.nest inner = graph.nest other := by
  rw [nest, nest, Nest.graph.injEq]
  refine ⟨List.map_congr_left fun state hstate => ?_, rfl, rfl⟩
  rw [NestedState.mk.injEq]
  refine ⟨List.map_congr_left fun node hnode => ?_, rfl, rfl⟩
  rw [NestedNode.mk.injEq]
  refine ⟨Option.map_congr fun id hnested => ?_, rfl⟩
  exact h id (List.mem_flatMap_of_mem hstate (List.mem_filterMap.mpr ⟨node, hnode, hnested⟩))

namespace Arena

variable {arena : Arena}

/-- Renaming the nested graphs and unfolding under the new names is unfolding under the old ones. -/
theorem nest_renameNested (graph : Subgraph) (name : Nat → Nat) (owner : Option Location)
    (inner : Nat → Nest) :
    Subgraph.nest { renameNested (fun id => some (name id)) graph with owner := owner } inner =
      graph.nest fun id => inner (name id) := by
  have hnested : ∀ nested : Option Nat,
      (nested.bind fun id => some (name id)).map inner = nested.map fun id => inner (name id) := by
    rintro (_ | id) <;> rfl
  simp only [Subgraph.nest, renameNested, List.map_map, Function.comp_def, hnested]

/-- The nest of the graph at an index, down to the given depth. -/
def unfolded (arena : Arena) : Nat → Nat → Nest
  | 0, _ => .cut
  | depth + 1, id => arena.graphs[id]?.elim .cut fun graph => graph.nest (arena.unfolded depth)

theorem unfolded_succ {id : Nat} {graph : Subgraph} (hgraph : arena.graphs[id]? = some graph)
    (depth : Nat) : arena.unfolded (depth + 1) id = graph.nest (arena.unfolded depth) := by
  rw [unfolded, hgraph, Option.elim_some]

theorem unfolded_of_length_le {id : Nat} (h : arena.graphs.length ≤ id) (depth : Nat) :
    arena.unfolded depth id = .cut := by
  cases depth with
  | zero => rfl
  | succ depth => rw [unfolded, List.getElem?_eq_none h, Option.elim_none]

/-- A graph that stands elsewhere under another name unfolds alike. -/
theorem Renamed.unfolded_eq {met : List Nat} {name : Nat → Nat} {first second : Arena}
    (h : Renamed met name first second) (hreach : first.Reaches met) (depth : Nat) {id : Nat}
    (hid : id ∈ met) : second.unfolded depth (name id) = first.unfolded depth id := by
  induction depth generalizing id with
  | zero => rfl
  | succ depth ih =>
      obtain ⟨graph, hgraph⟩ := hreach.exists_graph hid
      obtain ⟨owner, hrenamed⟩ := h id hid graph hgraph
      rw [unfolded_succ hrenamed, unfolded_succ hgraph, nest_renameNested]
      exact Subgraph.nest_congr fun nested hnested =>
        ih (hreach.children_mem hid hgraph nested hnested)

namespace Reaches

variable {met : List Nat}

/-- Renumbering does not change what the root unfolds to. -/
theorem unfolded_renumber (h : arena.Reaches met) (depth : Nat) :
    arena.renumber.unfolded depth 0 = arena.unfolded depth 0 := by
  have hroot : 0 ∈ met := by
    obtain ⟨rest, rfl⟩ := h.head
    exact List.mem_cons_self
  have heq := h.renumber_renamed.unfolded_eq h depth hroot
  rwa [h.idxOf_root] at heq

/-- Where graphs are met in the order of their indices, there are at most as many graphs below one
as stand behind it. -/
theorem unfolded_of_le (h : arena.Reaches (List.range arena.graphs.length)) {depth id : Nat}
    (hdepth : arena.graphs.length - id ≤ depth) :
    arena.unfolded (depth + 1) id = arena.unfolded depth id := by
  induction depth generalizing id with
  | zero =>
      have hid : arena.graphs.length ≤ id := by omega
      rw [unfolded_of_length_le hid, unfolded_of_length_le hid]
  | succ depth ih =>
      by_cases hid : id < arena.graphs.length
      · have hgraph := List.getElem?_eq_getElem hid
        rw [unfolded_succ hgraph, unfolded_succ hgraph]
        refine Subgraph.nest_congr fun nested hnested => ih ?_
        have hlt : id < nested :=
          h.walk.lt_of_mem_children List.pairwise_lt_range (List.mem_range.mpr hid)
            (by simpa [childrenAt, hgraph] using hnested)
        omega
      · have hid := Nat.le_of_not_lt hid
        rw [unfolded_of_length_le hid, unfolded_of_length_le hid]

/-- The unfolding of the root is complete at a depth of as many graphs as there are to meet. -/
theorem unfolded_complete (h : arena.Reaches met) {depth : Nat} (hdepth : met.length ≤ depth) :
    arena.unfolded depth 0 = arena.unfolded met.length 0 := by
  have hreach := h.renumber_reaches
  rw [← h.renumber_length] at hreach
  induction depth, hdepth using Nat.le_induction with
  | base => rfl
  | succ depth hle ih =>
      have hlength := h.renumber_length
      rw [← ih, ← h.unfolded_renumber, ← h.unfolded_renumber]
      exact hreach.unfolded_of_le (by omega)

/-! ## Owners after renumbering -/

/-- Recording owners does not change which nodes own graphs. -/
theorem owns_recordOwners {location : Location} {id : Nat} :
    arena.recordOwners.Owns location id ↔ arena.Owns location id := by
  simp only [owns_iff, recordOwners_getElem?, Option.map_eq_some_iff]
  constructor
  · rintro ⟨_, ⟨graph, hgraph, rfl⟩, howner⟩
    exact ⟨graph, hgraph, howner⟩
  · rintro ⟨graph, hgraph, howner⟩
    exact ⟨_, ⟨graph, hgraph, rfl⟩, howner⟩

/-- After recording, the owner of a graph is the node that owns it. -/
theorem owner_recordOwners
    (hwalk : Walks arena.recordOwners.childrenAt [0]
      (List.range arena.recordOwners.graphs.length))
    {id : Nat} {graph : Subgraph} (hgraph : arena.recordOwners.graphs[id]? = some graph)
    {location : Location} :
    graph.owner = some location ↔ arena.recordOwners.Owns location id := by
  have hlength : arena.recordOwners.graphs.length = arena.graphs.length := by simp [recordOwners]
  rw [childrenAt_recordOwners, hlength] at hwalk
  have hnodup := (List.nodup_cons.mp (owners_nodup hwalk)).2
  rw [recordOwners_getElem?] at hgraph
  obtain ⟨original, _, rfl⟩ := Option.map_eq_some_iff.mp hgraph
  rw [owns_recordOwners, ← lookup_owners hnodup]

theorem ownersIn_renameNested (id place : Nat) (graph : Subgraph) (name : Nat → Nat)
    (owner : Option Location) :
    ownersIn place { renameNested (fun nested => some (name nested)) graph with owner := owner } =
      (ownersIn id graph).map fun entry => (name entry.1, { entry.2 with graph := place }) := by
  have hnested : ∀ (nested : Option Nat) (location : Location),
      (nested.bind fun id => some (name id)).map (fun id => (id, location)) =
        nested.map fun id => (name id, location) := by
    rintro (_ | id) _ <;> rfl
  simp only [ownersIn, renameNested, List.zipIdx_map, List.flatMap_map, List.map_flatMap,
    List.filterMap_map, List.map_filterMap, Function.comp_def, Prod.map, hnested, Option.map_map]
  rfl

/-- A graph keeps its owner, under the new names of both. -/
theorem owns_renumber (h : arena.Reaches met) {place id : Nat} (hplace : met[place]? = some id)
    {location : Location} : arena.renumber.Owns location place ↔
      ∃ old, arena.Reached old.graph ∧ arena.Owns old id ∧
        location = { old with graph := met.idxOf old.graph } := by
  have hindex : ∀ {place id : Nat}, met[place]? = some id → met.idxOf id = place := by
    intro place id hplace
    obtain ⟨hlt, rfl⟩ := List.getElem?_eq_some_iff.mp hplace
    exact h.nodup.idxOf_getElem place hlt
  constructor
  · intro howns
    obtain ⟨_, hgraph, howner⟩ := owns_iff.mp howns
    obtain ⟨parent, original, owner, hparent, horiginal, rfl⟩ := h.renumber_getElem? hgraph
    rw [ownersIn_renameNested parent, List.mem_map] at howner
    obtain ⟨⟨nested, old⟩, hmem, heq⟩ := howner
    obtain ⟨rfl, hlocation⟩ := Prod.mk.inj heq
    have hmet : parent ∈ met := List.mem_of_getElem? hparent
    have hchild : nested ∈ original.children := by
      rw [← ownersIn_fst parent]
      exact List.mem_map_of_mem hmem
    -- The child is met as well, so its place in the walk leads back to it.
    rw [List.getElem?_idxOf (h.children_mem hmet horiginal nested hchild)] at hplace
    obtain rfl := Option.some.inj hplace
    obtain ⟨rfl, _⟩ := mem_ownersIn.mp hmem
    refine ⟨old, h.mem_iff_reached.mp hmet, owns_iff.mpr ⟨original, horiginal, hmem⟩, ?_⟩
    rw [hindex hparent]
    exact hlocation.symm
  · rintro ⟨old, hreached, howns, rfl⟩
    obtain ⟨original, horiginal, hmem⟩ := owns_iff.mp howns
    obtain ⟨owner, hrenamed⟩ :=
      h.renumber_renamed _ (h.mem_iff_reached.mpr hreached) original horiginal
    refine owns_iff.mpr ⟨_, hrenamed, ?_⟩
    rw [ownersIn_renameNested old.graph]
    exact List.mem_map.mpr ⟨_, hmem, by rw [hindex hplace]⟩

/-- Every graph that is met stands at its place in the walk, with its references renamed and with
the renamed owner on record. -/
theorem renumber_getElem?_of_met (h : arena.Reaches met) {place id : Nat}
    (hplace : met[place]? = some id) :
    ∃ graph owner, arena.graphs[id]? = some graph ∧
      arena.renumber.graphs[place]? =
        some { renameNested (fun nested => some (met.idxOf nested)) graph with owner := owner } ∧
      ∀ location, owner = some location ↔
        ∃ old, arena.Reached old.graph ∧ arena.Owns old id ∧
          location = { old with graph := met.idxOf old.graph } := by
  obtain ⟨hlt, rfl⟩ := List.getElem?_eq_some_iff.mp hplace
  have hmet := List.getElem_mem hlt
  obtain ⟨graph, hgraph⟩ := h.exists_graph hmet
  obtain ⟨owner, hrenamed⟩ := h.renumber_renamed _ hmet graph hgraph
  simp only [h.nodup.idxOf_getElem place hlt] at hrenamed
  refine ⟨graph, owner, hgraph, hrenamed, fun location => ?_⟩
  rw [← h.owns_renumber hplace]
  have hwalk := h.renumber_reaches.walk
  rw [← h.renumber_length] at hwalk
  rw [renumber] at hrenamed hwalk ⊢
  exact owner_recordOwners hwalk hrenamed

end Reaches

/-! ## Renumbering a tree -/

/-- What renumbering makes of an arena. -/
structure RenumbersExactly (arena : Arena) : Prop where
  /-- The loop over a stack comes to an end, always the same: with the order of the arena. -/
  ends : Acc (fun after before => Turn arena before after) ([], [0])
  loop : ∀ state, ReflTransGen (Turn arena) ([], [0]) state →
    state.1 <+: arena.order ∧ ReflTransGen (Turn arena) state (arena.order, [])
  /-- It meets what lies below the root, every graph once, and in the order of a recursion. -/
  reached : ∀ id, id ∈ arena.order ↔ arena.Reached id
  once : arena.order.Nodup
  preorder : Preorder arena.childrenAt [0] arena.order
  /-- These graphs are what is left, each at its place in the order. References and owners go by the
  new names. -/
  length : arena.renumber.graphs.length = arena.order.length
  graph : ∀ place id : Nat, arena.order[place]? = some id → ∃ graph owner,
    arena.graphs[id]? = some graph ∧
      arena.renumber.graphs[place]? = some
        { renameNested (fun nested => some (arena.order.idxOf nested)) graph with
          owner := owner } ∧
      ∀ location, owner = some location ↔ ∃ old, arena.Reached old.graph ∧ arena.Owns old id ∧
        location = { old with graph := arena.order.idxOf old.graph }
  /-- The root unfolds into the same nest. -/
  unfolded : ∀ depth, arena.renumber.unfolded depth 0 = arena.unfolded depth 0
  /-- The nest is finite: a greater depth shows nothing more. -/
  complete : ∀ depth, arena.order.length ≤ depth →
    arena.unfolded depth 0 = arena.unfolded arena.order.length 0
  /-- An arena in order stays as it is. -/
  settled : arena.WellFormed → arena.renumber = arena

/-- Where the graphs that the root reaches form a tree, renumbering ends, lays them out in preorder,
drops the others, and keeps names, owners and the unfolding; on a well-formed arena it changes
nothing. -/
theorem FormsTree.renumbersExactly (h : arena.FormsTree) : arena.RenumbersExactly := by
  have hreach := h.reaches
  obtain ⟨hends, hloop⟩ := loop_ends (turns_of_walks hreach.walk hreach.inside [])
  exact {
    ends := hends
    loop := hloop
    reached := fun _ => hreach.mem_iff_reached
    once := hreach.nodup
    preorder := hreach.walk.preorder
    length := hreach.renumber_length
    graph := fun _ _ => hreach.renumber_getElem?_of_met
    unfolded := hreach.unfolded_renumber
    complete := fun _ => hreach.unfolded_complete
    settled := WellFormed.renumber_eq }

/-- A graph with one state, whose nodes own the given graphs. -/
def owning (label : String) (nested : List (Option Nat)) : Subgraph where
  states := [⟨nested.map fun id => ⟨id, [("label", .str label)]⟩, [⟨0, nested.length, []⟩], []⟩]
  edges := []
  owner := some default
  fields := [("label", .str label)]

/-- Four graphs below the root, out of order. The other two own graphs as well: one of them a graph
below the root and one that is not there, the other one itself. -/
def scatteredArena : Arena :=
  ⟨[owning "root" [some 4, none, some 2], owning "stray" [some 2, some 9], owning "last" [],
    owning "loop" [some 3], owning "first" [some 6, some 5], owning "inner" [], owning "deep" []]⟩

theorem scatteredArena_reaches : scatteredArena.Reaches [0, 4, 6, 5, 2] where
  walk := .visit (.visit (.visit (.visit (.visit .done))))
  nodup := by decide
  inside := by decide

theorem scatteredArena_renumbersExactly :
    scatteredArena.FormsTree ∧ scatteredArena.order = [0, 4, 6, 5, 2] ∧
      scatteredArena.RenumbersExactly :=
  have hreach := scatteredArena_reaches
  ⟨hreach.formsTree, order_eq hreach.walk hreach.nodup hreach.inside,
    FormsTree.renumbersExactly hreach.formsTree⟩

end Arena

end DataflowEditor
