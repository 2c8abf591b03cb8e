import DataflowEditor.Proofs.Graph.WellFormed

/-! # Renumbering

Renumbering keeps the graphs that a walk from the root meets, in the order in which it meets them.
If it meets none twice, the result is well formed, and it depends on the graphs only up to their
names: an arena and one in which the same graphs stand at other indices are renumbered alike. An
arena that is well formed already is left as it is.
-/

namespace DataflowEditor

namespace Arena

/-! ## Renaming nested graphs -/

section Rename

variable {rename other : Nat → Option Nat}

/-- What a renaming does to a graph depends on the graphs nested in it only. -/
theorem renameNested_congr {graph : Subgraph} (h : ∀ id ∈ graph.children, rename id = other id) :
    renameNested rename graph = renameNested other graph := by
  rw [renameNested, renameNested, Subgraph.mk.injEq]
  refine ⟨List.map_congr_left fun state hstate => ?_, rfl, rfl, rfl⟩
  rw [State.mk.injEq]
  refine ⟨List.map_congr_left fun node hnode => ?_, rfl, rfl⟩
  rw [Node.mk.injEq]
  refine ⟨?_, rfl⟩
  cases hnested : node.nested with
  | none => rfl
  | some id =>
      have hmem := List.mem_filterMap.mpr ⟨node, hnode, hnested⟩
      exact h id (List.mem_flatMap_of_mem hstate hmem)

theorem renameNested_some (graph : Subgraph) : renameNested some graph = graph := by
  simp [renameNested]

/-- Renaming twice is renaming along the composition. -/
theorem renameNested_comp (graph : Subgraph) :
    renameNested rename (renameNested other graph) =
      renameNested (fun id => (other id).bind rename) graph := by
  simp [renameNested, Function.comp_def, Option.bind_assoc]

theorem children_renameNested (graph : Subgraph) :
    (renameNested rename graph).children = graph.children.filterMap rename := by
  simp [renameNested, Subgraph.children, List.flatMap_map, List.filterMap_flatMap,
    List.filterMap_map, List.filterMap_filterMap]

theorem edgesInside_renameNested {graph : Subgraph} (h : graph.EdgesInside) :
    (renameNested rename graph).EdgesInside := by
  refine ⟨?_, ?_⟩
  · simpa [renameNested] using h.between
  · intro state hstate
    obtain ⟨original, horiginal, rfl⟩ := List.mem_map.mp hstate
    simpa [State.EdgesInside] using h.within original horiginal

end Rename

variable {arena : Arena}

/-! ## Recording owners -/

/-- The owner list pairs each owned graph with the location of its owner. -/
theorem mem_owners {owner : Nat × Location} :
    owner ∈ arena.owners ↔ arena.Owns owner.2 owner.1 := by
  obtain ⟨id, location⟩ := owner
  simp only [owners, List.mem_flatMap, Prod.exists, List.mk_mem_zipIdx_iff_getElem?, owns_iff]
  constructor
  · rintro ⟨graph, parent, hgraph, howner⟩
    obtain ⟨rfl, _⟩ := mem_ownersIn.mp howner
    exact ⟨graph, hgraph, howner⟩
  · rintro ⟨graph, hgraph, howner⟩
    exact ⟨graph, _, hgraph, howner⟩

/-- Going through the graphs in order meets every child list in order. -/
theorem flatMap_childrenAt :
    (List.range arena.graphs.length).flatMap arena.childrenAt =
      arena.graphs.flatMap Subgraph.children := by
  change (List.range arena.graphs.length).flatMap
    (fun id => arena.graphs[id]?.elim [] Subgraph.children) = _
  induction arena.graphs with
  | nil => rfl
  | cons graph rest ih =>
      rw [List.length_cons, List.range_succ_eq_map, List.flatMap_cons, List.flatMap_cons,
        List.flatMap_map, ← ih]
      rfl

theorem owners_fst : arena.owners.map Prod.fst = arena.graphs.flatMap Subgraph.children := by
  have hchildren : ∀ entry : Subgraph × Nat,
      (ownersIn entry.2 entry.1).map Prod.fst = entry.1.children :=
    fun entry => ownersIn_fst entry.2 entry.1
  rw [owners, List.map_flatMap]
  simp only [hchildren]
  conv_rhs => rw [← List.zipIdx_map_fst 0 arena.graphs, List.flatMap_map]

theorem recordOwners_getElem? (id : Nat) : arena.recordOwners.graphs[id]? =
    arena.graphs[id]?.map fun graph => { graph with owner := arena.owners.lookup id } := by
  simp [recordOwners]

theorem childrenAt_recordOwners : arena.recordOwners.childrenAt = arena.childrenAt := by
  funext id
  rw [childrenAt, childrenAt, recordOwners_getElem?]
  cases arena.graphs[id]? <;> rfl

/-- When no graph is listed twice, looking it up finds its one owner. -/
theorem lookup_of_nodup {owners : List (Nat × Location)} (h : (owners.map Prod.fst).Nodup)
    {owner : Nat × Location} (hmem : owner ∈ owners) : owners.lookup owner.1 = some owner.2 := by
  obtain ⟨front, behind, rfl⟩ := List.append_of_mem hmem
  refine List.lookup_eq_some_iff.mpr ⟨front, behind, rfl, ?_⟩
  intro other hother
  rw [List.map_append, List.nodup_append] at h
  exact bne_iff_ne.mpr (Ne.symm
    (h.2.2 _ (List.mem_map_of_mem hother) _ (by simp)))

/-- Where no graph is owned twice, looking one up gives the node that owns it. -/
theorem lookup_owners (h : (arena.owners.map Prod.fst).Nodup) {id : Nat} {location : Location} :
    arena.owners.lookup id = some location ↔ arena.Owns location id := by
  constructor
  · intro hfound
    obtain ⟨front, behind, heq, _⟩ := List.lookup_eq_some_iff.mp hfound
    exact mem_owners.mp (show (id, location) ∈ arena.owners by simp [heq])
  · intro howns
    have hmem : (id, location) ∈ arena.owners := mem_owners.mpr howns
    exact lookup_of_nodup h hmem

/-- In an arena that is walked in the order of its indices no graph is owned twice, and the root is
owned by none. -/
theorem owners_nodup (hwalk : Walks arena.childrenAt [0] (List.range arena.graphs.length)) :
    (0 :: arena.owners.map Prod.fst).Nodup := by
  rw [owners_fst, ← flatMap_childrenAt]
  exact hwalk.perm.nodup_iff.mp List.nodup_range

/-- An arena that the walk from the root meets in order, once each, is well-formed once its owners
are recorded. -/
theorem recordOwners_wellFormed
    (hwalk : Walks arena.childrenAt [0] (List.range arena.graphs.length))
    (hedges : ∀ graph ∈ arena.graphs, graph.EdgesInside) : arena.recordOwners.WellFormed := by
  have hnodup := owners_nodup hwalk
  have hlength : arena.recordOwners.graphs.length = arena.graphs.length := by simp [recordOwners]
  have hgraph : ∀ {id : Nat} {graph : Subgraph}, arena.recordOwners.graphs[id]? = some graph →
      ∃ original, arena.graphs[id]? = some original ∧
        graph = { original with owner := arena.owners.lookup id } := by
    intro id graph h
    rw [recordOwners_getElem?] at h
    obtain ⟨original, horiginal, rfl⟩ := Option.map_eq_some_iff.mp h
    exact ⟨original, horiginal, rfl⟩
  apply InOrder.wellFormed
  rw [hlength]
  refine ⟨?_, ?_, ?_, ?_⟩
  · rw [childrenAt_recordOwners, ← List.range_eq_range']
    exact hwalk
  · have hroot : 0 < arena.graphs.length :=
      List.mem_range.mp ((hwalk.mem_iff 0).mpr (.inl List.mem_cons_self))
    have hnone : arena.owners.lookup 0 = none := by
      rw [List.lookup_eq_none_iff]
      intro owner howner
      have hne : owner.1 ≠ 0 := fun heq =>
        (List.nodup_cons.mp hnodup).1 (heq ▸ List.mem_map_of_mem howner)
      simpa using Ne.symm hne
    simp [recordOwners_getElem?, List.getElem?_eq_getElem hroot, hnone]
  · intro id _ graph hfound owner howner
    obtain ⟨original, horiginal, rfl⟩ := hgraph hfound
    have hmem : owner ∈ arena.owners := by
      obtain ⟨rfl, _⟩ := mem_ownersIn.mp howner
      exact mem_owners.mpr (owns_iff.mpr ⟨original, horiginal, howner⟩)
    -- No graph is listed twice, so that looking it up gives this owner.
    have hlookup := lookup_of_nodup (List.nodup_cons.mp hnodup).2 hmem
    have hinside : owner.1 ∈ List.range arena.graphs.length := by
      rw [hwalk.mem_iff, ← List.mem_flatMap, flatMap_childrenAt, ← owners_fst]
      exact .inr (List.mem_map_of_mem hmem)
    rw [recordedOwner, recordOwners_getElem?,
      List.getElem?_eq_getElem (List.mem_range.mp hinside)]
    exact hlookup
  · intro id _ graph hfound
    obtain ⟨original, horiginal, rfl⟩ := hgraph hfound
    have hinside := hedges original (List.mem_of_getElem? horiginal)
    exact ⟨hinside.between, hinside.within⟩

/-- A graph without the owner on record. -/
def unowned (graph : Subgraph) : Subgraph :=
  { graph with owner := none }

/-- What is on record beforehand does not matter. -/
theorem recordOwners_unowned :
    recordOwners ⟨arena.graphs.map unowned⟩ = arena.recordOwners := by
  have howners : owners ⟨arena.graphs.map unowned⟩ = arena.owners := by
    rw [owners, owners, List.zipIdx_map, List.flatMap_map]
    rfl
  rw [recordOwners, recordOwners, howners, Arena.mk.injEq, List.mapIdx_eq_iff]
  intro id
  rw [List.getElem?_mapIdx, List.getElem?_map, Option.map_map]
  rfl

/-- Recording owners forgets whatever owners were there before. -/
theorem recordOwners_congr {other : Arena}
    (h : arena.graphs.map unowned = other.graphs.map unowned) :
    arena.recordOwners = other.recordOwners := by
  rw [← recordOwners_unowned, h, recordOwners_unowned]

/-! ## The graphs that a walk reaches -/

/-- The graphs below the root form a tree, and a walk meets them in this order. -/
structure Reaches (arena : Arena) (met : List Nat) : Prop where
  walk : Walks arena.childrenAt [0] met
  nodup : met.Nodup
  inside : ∀ id ∈ met, id < arena.graphs.length

/-- From the root of a well-formed arena the walk meets every graph, in the order of the arena. -/
theorem WellFormed.reaches (h : arena.WellFormed) :
    arena.Reaches (List.range arena.graphs.length) :=
  ⟨h.preorder, List.nodup_range, fun _ hid => List.mem_range.mp hid⟩

/-- The graphs that are met stand in another arena under new names. Their owners are left open. -/
def Renamed (met : List Nat) (name : Nat → Nat) (first second : Arena) : Prop :=
  ∀ id ∈ met, ∀ graph, first.graphs[id]? = some graph →
    ∃ owner, second.graphs[name id]? =
      some { renameNested (fun nested => some (name nested)) graph with owner := owner }

namespace Reaches

variable {met : List Nat}

/-- The graphs nested in a graph that was met are met too. -/
theorem children_mem (h : arena.Reaches met) {id : Nat} {graph : Subgraph} (hid : id ∈ met)
    (hgraph : arena.graphs[id]? = some graph) : ∀ nested ∈ graph.children, nested ∈ met := by
  intro nested hnested
  refine (h.walk.mem_iff nested).mpr (.inr ⟨id, hid, ?_⟩)
  simpa [childrenAt, hgraph] using hnested

theorem exists_graph (h : arena.Reaches met) {id : Nat} (hid : id ∈ met) :
    ∃ graph, arena.graphs[id]? = some graph :=
  ⟨_, List.getElem?_eq_getElem (h.inside id hid)⟩

theorem head (h : arena.Reaches met) : ∃ rest, met = 0 :: rest := by
  obtain ⟨hwalk, _, _⟩ := h
  cases hwalk with
  | visit => exact ⟨_, rfl⟩

/-- The graphs that are met, each under its place in the walk. -/
theorem kept_getElem? (h : arena.Reaches met) (place : Nat) :
    (met.filterMap fun id => arena.graphs[id]?)[place]? =
      met[place]?.bind fun id => arena.graphs[id]? := by
  have hsome : ∀ id ∈ met, arena.graphs[id]? = some (arena.graphs[id]?.getD default) := by
    intro id hid
    obtain ⟨graph, hgraph⟩ := h.exists_graph hid
    simp [hgraph]
  rw [List.filterMap_congr hsome, List.filterMap_eq_map', List.getElem?_map]
  cases hplace : met[place]? with
  | none => rfl
  | some id => exact (hsome id (List.mem_of_getElem? hplace)).symm

end Reaches

/-- Only the names of the graphs that are there matter. -/
theorem WellFormed.renameNested_eq (h : arena.WellFormed) {rename other : Nat → Option Nat}
    (hagree : ∀ id < arena.graphs.length, rename id = other id) {id : Nat} {graph : Subgraph}
    (hgraph : arena.graphs[id]? = some graph) :
    renameNested rename graph = renameNested other graph := by
  have hmet := List.mem_range.mpr (List.getElem?_eq_some_iff.mp hgraph).1
  exact renameNested_congr fun nested hnested => hagree nested
    (List.mem_range.mp (h.reaches.children_mem hmet hgraph nested hnested))

theorem idxOf?_of_mem {met : List Nat} {id : Nat} (h : id ∈ met) :
    met.idxOf? id = some (met.idxOf id) := by
  induction met with
  | nil => simp at h
  | cons first rest ih =>
      by_cases heq : first = id
      · simp [List.idxOf?_cons, heq]
      · have hrest := (List.mem_cons.mp h).resolve_left (Ne.symm heq)
        simp [List.idxOf?_cons, heq, ih hrest]

/-- Numbering what was met by its place in the walk gives 0, 1, 2 and so on. -/
theorem map_idxOf_self {met : List Nat} (h : met.Nodup) :
    met.map met.idxOf = List.range met.length := by
  apply List.ext_getElem (by simp)
  intro place hplace _
  rw [List.getElem_map, List.getElem_range]
  exact h.idxOf_getElem place (by simpa using hplace)

theorem idxOf_range {count id : Nat} (h : id < count) : (List.range count).idxOf id = id := by
  have hself := List.nodup_range.idxOf_getElem id (by rwa [List.length_range])
  rwa [List.getElem_range] at hself

/-- Names that differ on what is met keep the places apart. -/
theorem idxOf_map {α β : Type} [DecidableEq α] [DecidableEq β] {met : List α} {name : α → β}
    (hname : ∀ a ∈ met, ∀ b ∈ met, name a = name b → a = b) {id : α} (hid : id ∈ met) :
    (met.map name).idxOf (name id) = met.idxOf id := by
  induction met with
  | nil => simp at hid
  | cons first rest ih =>
      by_cases heq : first = id
      · simp [heq]
      · have hrest := (List.mem_cons.mp hid).resolve_left (Ne.symm heq)
        have hne : name first ≠ name id := fun h =>
          heq (hname first List.mem_cons_self id hid h)
        have htail := ih (fun a ha b hb => hname a (List.mem_cons_of_mem _ ha) b
          (List.mem_cons_of_mem _ hb)) hrest
        rw [List.map_cons, List.idxOf_cons_ne _ hne, List.idxOf_cons_ne _ heq, htail]

namespace Renamed

variable {met : List Nat} {name : Nat → Nat} {first second : Arena}

theorem childrenAt (h : Renamed met name first second) (hreach : first.Reaches met) {id : Nat}
    (hid : id ∈ met) : second.childrenAt (name id) = (first.childrenAt id).map name := by
  obtain ⟨graph, hgraph⟩ := hreach.exists_graph hid
  obtain ⟨owner, hrenamed⟩ := h id hid graph hgraph
  rw [Arena.childrenAt, Arena.childrenAt, hgraph, hrenamed, Option.elim_some, Option.elim_some,
    ← List.filterMap_eq_map']
  exact children_renameNested graph

/-- The walk through the renamed arena meets the renamed graphs, in the same order. -/
theorem reaches (h : Renamed met name first second) (hreach : first.Reaches met)
    (hroot : name 0 = 0) (hname : ∀ a ∈ met, ∀ b ∈ met, name a = name b → a = b) :
    second.Reaches (met.map name) := by
  refine ⟨?_, ?_, ?_⟩
  · have hwalk := hreach.walk.rename fun id hid => h.childrenAt hreach hid
    rwa [List.map_singleton, hroot] at hwalk
  · exact List.Nodup.map_on (fun a ha b hb => hname a ha b hb) hreach.nodup
  · intro renamed hmem
    obtain ⟨id, hid, rfl⟩ := List.mem_map.mp hmem
    obtain ⟨graph, hgraph⟩ := hreach.exists_graph hid
    obtain ⟨owner, hrenamed⟩ := h id hid graph hgraph
    exact (List.getElem?_eq_some_iff.mp hrenamed).1

/-- Arenas that are the same up to the names of their graphs are renumbered alike. -/
theorem renumber_eq (h : Renamed met name first second) (hreach : first.Reaches met)
    (hroot : name 0 = 0) (hname : ∀ a ∈ met, ∀ b ∈ met, name a = name b → a = b) :
    second.renumber = first.renumber := by
  have hsecond := h.reaches hreach hroot hname
  rw [renumber, renumber, order_eq hsecond.walk hsecond.nodup hsecond.inside,
    order_eq hreach.walk hreach.nodup hreach.inside]
  refine recordOwners_congr (List.ext_getElem? fun place => ?_)
  simp only [List.getElem?_map, hsecond.kept_getElem?, hreach.kept_getElem?]
  cases hplace : met[place]? with
  | none => rfl
  | some id =>
      have hid := List.mem_of_getElem? hplace
      obtain ⟨graph, hgraph⟩ := hreach.exists_graph hid
      obtain ⟨owner, hrenamed⟩ := h id hid graph hgraph
      -- A nested graph has the same place in both walks, whatever it is called.
      have hsame : renameNested (fun nested => (met.map name).idxOf? (name nested)) graph =
          renameNested (fun nested => met.idxOf? nested) graph := by
        apply renameNested_congr
        intro nested hnested
        have hmem := hreach.children_mem hid hgraph nested hnested
        rw [idxOf?_of_mem hmem, idxOf?_of_mem (List.mem_map_of_mem hmem), idxOf_map hname hmem]
      rw [Option.bind_some, Option.map_some, Option.bind_some, hgraph, hrenamed, Option.map_some,
        Option.map_some, Option.map_some, Option.map_some, Option.some.injEq, ← hsame]
      have hcomp : renameNested (fun id => (met.map name).idxOf? id)
          (renameNested (fun nested => some (name nested)) graph) =
            renameNested (fun nested => (met.map name).idxOf? (name nested)) graph :=
        renameNested_comp graph
      have hunowned := congrArg unowned hcomp
      exact hunowned

end Renamed

namespace Reaches

variable {met : List Nat}

/-- Renumbering names the graphs that are met by their places in the walk. -/
theorem renumber_renamed (h : arena.Reaches met) :
    Renamed met met.idxOf arena arena.renumber := by
  intro id hid graph hgraph
  have hnested : renameNested (fun nested => met.idxOf? nested) graph =
      renameNested (fun nested => some (met.idxOf nested)) graph :=
    renameNested_congr fun nested hnested =>
      idxOf?_of_mem (h.children_mem hid hgraph nested hnested)
  rw [renumber, order_eq h.walk h.nodup h.inside, recordOwners_getElem?, List.getElem?_map,
    h.kept_getElem?, List.getElem?_idxOf hid, Option.bind_some, hgraph, Option.map_some,
    Option.map_some, hnested]
  exact ⟨_, rfl⟩

theorem renumber_length (h : arena.Reaches met) : arena.renumber.graphs.length = met.length := by
  have hkept : ∀ place : Nat, (met.filterMap fun id => arena.graphs[id]?)[place]? = none ↔
      met[place]? = none := by
    intro place
    rw [h.kept_getElem?]
    cases hplace : met[place]? with
    | none => simp
    | some id =>
        obtain ⟨graph, hgraph⟩ := h.exists_graph (List.mem_of_getElem? hplace)
        simp [hgraph]
  rw [renumber, order_eq h.walk h.nodup h.inside]
  simp only [recordOwners, List.length_mapIdx, List.length_map]
  apply Nat.le_antisymm
  · exact List.getElem?_eq_none_iff.mp ((hkept _).mpr (List.getElem?_eq_none le_rfl))
  · exact List.getElem?_eq_none_iff.mp ((hkept _).mp (List.getElem?_eq_none le_rfl))

/-- Every graph of the renumbered arena is one that is met. -/
theorem renumber_getElem? (h : arena.Reaches met) {place : Nat} {graph : Subgraph}
    (hgraph : arena.renumber.graphs[place]? = some graph) :
    ∃ id original owner, met[place]? = some id ∧ arena.graphs[id]? = some original ∧
      graph = { renameNested (fun nested => some (met.idxOf nested)) original with
        owner := owner } := by
  have hplace := (List.getElem?_eq_some_iff.mp hgraph).1
  rw [h.renumber_length] at hplace
  have hid := List.getElem_mem hplace
  obtain ⟨original, horiginal⟩ := h.exists_graph hid
  obtain ⟨owner, hrenamed⟩ := h.renumber_renamed _ hid original horiginal
  have hindex : met.idxOf met[place] = place := h.nodup.idxOf_getElem place hplace
  simp only [hindex, hgraph] at hrenamed
  exact ⟨_, original, owner, List.getElem?_eq_getElem hplace, horiginal,
    Option.some.inj hrenamed⟩

/-- What holds of every graph under all names and owners holds after renumbering. -/
theorem forall_renumber (h : arena.Reaches met) {P : Subgraph → Prop}
    (hgraphs : ∀ graph ∈ arena.graphs, P graph)
    (hrename : ∀ (graph : Subgraph) (name : Nat → Nat) (owner : Option Location), P graph →
      P { renameNested (fun nested => some (name nested)) graph with owner := owner }) :
    ∀ graph ∈ arena.renumber.graphs, P graph := by
  intro graph hgraph
  obtain ⟨place, hplace⟩ := List.mem_iff_getElem?.mp hgraph
  obtain ⟨id, original, owner, _, horiginal, rfl⟩ := h.renumber_getElem? hplace
  exact hrename original _ owner (hgraphs original (List.mem_of_getElem? horiginal))

theorem idxOf_root (h : arena.Reaches met) : met.idxOf 0 = 0 := by
  obtain ⟨rest, rfl⟩ := h.head
  exact List.idxOf_cons_self

/-- After renumbering, the walk meets the graphs in the order of the arena. -/
theorem renumber_reaches (h : arena.Reaches met) :
    arena.renumber.Reaches (List.range met.length) := by
  have hreach := h.renumber_renamed.reaches h h.idxOf_root
    fun _ ha _ _ heq => (List.idxOf_inj ha).mp heq
  rwa [map_idxOf_self h.nodup] at hreach

/-- Where the graphs below the root form a tree, renumbering makes the arena well formed. -/
theorem renumber_wellFormed (h : arena.Reaches met)
    (hedges : ∀ id ∈ met, ∀ graph, arena.graphs[id]? = some graph → graph.EdgesInside) :
    arena.renumber.WellFormed := by
  have hwalk := h.renumber_reaches.walk
  rw [← h.renumber_length] at hwalk
  rw [renumber, order_eq h.walk h.nodup h.inside] at hwalk ⊢
  refine recordOwners_wellFormed ?_ ?_
  · rw [childrenAt_recordOwners] at hwalk
    simpa [recordOwners] using hwalk
  · intro graph hgraph
    obtain ⟨original, horiginal, rfl⟩ := List.mem_map.mp hgraph
    obtain ⟨id, hid, hfound⟩ := List.mem_filterMap.mp horiginal
    exact edgesInside_renameNested (hedges id hid original hfound)

end Reaches

/-- A well-formed arena has its owners recorded already. -/
theorem WellFormed.recordOwners_eq (h : arena.WellFormed) : arena.recordOwners = arena := by
  have hnodup := (List.nodup_cons.mp (owners_nodup h.preorder)).2
  suffices hgraphs : arena.recordOwners.graphs = arena.graphs from congrArg Arena.mk hgraphs
  apply List.ext_getElem?
  intro id
  rw [recordOwners_getElem?]
  cases hgraph : arena.graphs[id]? with
  | none => rfl
  | some graph =>
      have hlookup : arena.owners.lookup id = graph.owner := by
        apply Option.ext
        intro location
        have hrecord : graph.owner = some location ↔ arena.Owns location id := by
          rw [← h.recordedOwner_eq_some_iff, recordedOwner, hgraph, Option.bind_some]
        rw [hrecord]
        exact lookup_owners hnodup
      rw [Option.map_some, hlookup]

/-- A well-formed arena is in order already. -/
theorem WellFormed.renumber_eq (h : arena.WellFormed) : arena.renumber = arena := by
  have hreach := h.reaches
  have hkept : ((List.range arena.graphs.length).filterMap fun id => arena.graphs[id]?) =
      arena.graphs := by
    apply List.ext_getElem?
    intro id
    rw [hreach.kept_getElem?]
    by_cases hid : id < arena.graphs.length
    · simp [List.getElem?_range hid]
    · simp [Nat.le_of_not_lt hid]
  rw [renumber, order_eq hreach.walk hreach.nodup hreach.inside, hkept]
  have hnested : arena.graphs.map (renameNested fun id =>
      (List.range arena.graphs.length).idxOf? id) = arena.graphs := by
    refine (List.map_congr_left fun graph hgraph => ?_).trans (List.map_id _)
    obtain ⟨id, hid⟩ := List.mem_iff_getElem?.mp hgraph
    refine (h.renameNested_eq (fun nested hnested => ?_) hid).trans (renameNested_some graph)
    rw [idxOf?_of_mem (List.mem_range.mpr hnested), idxOf_range hnested]
  rw [hnested]
  exact h.recordOwners_eq

end Arena

end DataflowEditor
