import DataflowEditor.Proofs.Graph.Renumber
import Mathlib.Logic.Relation

/-! # Traversals

Where the graphs below the root form a tree, a walk from the root meets each of them once. The same
walk is described in two more ways: as a loop over a stack, which ends, and as a recursion that
meets a graph before everything below it. What the walk meets is also said without a walk, by the
nodes that own graphs.
-/

namespace DataflowEditor

open Relation

/-! ## Recursive pre-order -/

/-- The graphs a recursion meets: each root, then everything below it, then the roots behind it. -/
inductive Preorder (children : Nat → List Nat) : List Nat → List Nat → Prop
  | nil : Preorder children [] []
  | cons {id : Nat} {roots below others : List Nat} :
      Preorder children (children id) below → Preorder children roots others →
        Preorder children (id :: roots) (id :: (below ++ others))

/-- A walk meets the graphs in preorder. -/
theorem Walks.preorder {children : Nat → List Nat} {waiting met : List Nat}
    (h : Walks children waiting met) : Preorder children waiting met := by
  induction hlength : met.length using Nat.strong_induction_on generalizing waiting met with
  | _ length ih =>
      cases h with
      | done => exact .nil
      | visit hrest =>
          -- What is met before the other roots lies below the first one.
          obtain ⟨below, others, rfl, hbelow, hothers⟩ := hrest.split
          rw [List.length_cons, List.length_append] at hlength
          exact .cons (ih below.length (by omega) hbelow rfl)
            (ih others.length (by omega) hothers rfl)

namespace Arena

variable {arena : Arena}

/-! ## A loop over a stack -/

/-- One turn of the loop, on the graphs met so far and those that wait with the next one last. That
graph is met, and its children take its place, the first of them on top. -/
inductive Turn (arena : Arena) : List Nat × List Nat → List Nat × List Nat → Prop
  | visit {id : Nat} {graph : Subgraph} (met stack : List Nat) :
      arena.graphs[id]? = some graph →
        Turn arena (met, stack ++ [id]) (met ++ [id], stack ++ graph.children.reverse)

/-- What the loop does next is settled. -/
theorem Turn.unique : Relator.RightUnique (Turn arena) := by
  intro before first second hfirst hsecond
  cases hfirst with
  | @visit id graph met stack hgraph =>
      generalize hbefore : (met, stack ++ [id]) = before at hsecond
      cases hsecond with
      | visit _ _ hother =>
          rw [Prod.mk.injEq] at hbefore
          obtain ⟨rfl, hstack⟩ := hbefore
          obtain ⟨rfl, hlast⟩ := List.append_inj' hstack rfl
          obtain rfl := (List.cons.inj hlast).1
          rw [Option.some.inj (hgraph.symm.trans hother)]

/-- With nothing left on the stack there is no turn to make. -/
theorem Turn.not_of_empty {met : List Nat} {after : List Nat × List Nat} :
    ¬ Turn arena (met, []) after := by
  intro h
  generalize hbefore : (met, ([] : List Nat)) = before at h
  cases h with
  | visit => simp at hbefore

/-- A turn only adds to what was met. -/
theorem Turn.fst_prefix {before after : List Nat × List Nat} (h : Turn arena before after) :
    before.1 <+: after.1 := by
  cases h with
  | visit => exact List.prefix_append _ _

theorem fst_prefix_of_turns {before after : List Nat × List Nat}
    (h : ReflTransGen (Turn arena) before after) : before.1 <+: after.1 := by
  induction h with
  | refl => exact List.prefix_rfl
  | tail _ hturn ih => exact ih.trans hturn.fst_prefix

/-- The loop empties its stack and meets what a walk meets. -/
theorem turns_of_walks {waiting met : List Nat} (h : Walks arena.childrenAt waiting met)
    (hinside : ∀ id ∈ met, id < arena.graphs.length) (before : List Nat) :
    ReflTransGen (Turn arena) (before, waiting.reverse) (before ++ met, []) := by
  induction h generalizing before with
  | done => simpa using ReflTransGen.refl
  | @visit id waiting met _ ih =>
      have hgraph := List.getElem?_eq_getElem (hinside id List.mem_cons_self)
      have hrest := ih (fun other hother => hinside other (List.mem_cons_of_mem _ hother))
        (before ++ [id])
      have hturn := Turn.visit before waiting.reverse hgraph
      rw [List.reverse_append, childrenAt, hgraph, Option.elim_some] at hrest
      rw [List.reverse_cons]
      simpa using hrest.head hturn

/-- A loop that comes to an empty stack has no other way to go: it comes there from every state on
the way, and cannot go on for ever. -/
theorem loop_ends {start : List Nat × List Nat} {met : List Nat}
    (h : ReflTransGen (Turn arena) start (met, [])) :
    Acc (fun after before => Turn arena before after) start ∧
      ∀ state, ReflTransGen (Turn arena) start state →
        state.1 <+: met ∧ ReflTransGen (Turn arena) state (met, []) := by
  constructor
  · induction h using ReflTransGen.head_induction_on with
    | refl => exact .intro _ fun after hturn => absurd hturn Turn.not_of_empty
    | head hturn _ ih =>
        refine .intro _ fun after hother => ?_
        rwa [Turn.unique hother hturn]
  · intro state hstate
    have hrest : ReflTransGen (Turn arena) state (met, []) := by
      rcases ReflTransGen.total_of_right_unique Turn.unique h hstate with hbehind | hbefore
      · rcases hbehind.cases_head with rfl | ⟨after, hturn, _⟩
        · exact .refl
        · exact absurd hturn Turn.not_of_empty
      · exact hbefore
    exact ⟨fst_prefix_of_turns hrest, hrest⟩

/-! ## Graphs below the root -/

/-- The root, and what a node of a graph below the root owns. -/
inductive Reached (arena : Arena) : Nat → Prop
  | root : Reached arena 0
  | nested {location : Location} {id : Nat} :
      Reached arena location.graph → arena.Owns location id → Reached arena id

/-- The graphs below the root form a tree. Nothing is said of the other graphs. -/
structure FormsTree (arena : Arena) : Prop where
  inside : ∀ id, arena.Reached id → id < arena.graphs.length
  root : ∀ location, arena.Reached location.graph → ¬ arena.Owns location 0
  owned : ∀ id, arena.Reached id → id ≠ 0 →
    ∃! location, arena.Reached location.graph ∧ arena.Owns location id

/-- The children of a graph are those owned at a location inside it. -/
theorem mem_childrenAt_iff_owns {parent id : Nat} :
    id ∈ arena.childrenAt parent ↔
      ∃ location, location.graph = parent ∧ arena.Owns location id := by
  rw [mem_childrenAt]
  constructor
  · rintro ⟨graph, hgraph, location, howner⟩
    obtain ⟨rfl, _⟩ := mem_ownersIn.mp howner
    exact ⟨location, rfl, owns_iff.mpr ⟨graph, hgraph, howner⟩⟩
  · rintro ⟨location, rfl, howns⟩
    obtain ⟨graph, hgraph, howner⟩ := owns_iff.mp howns
    exact ⟨graph, hgraph, location, howner⟩

theorem Reached.of_mem_childrenAt {parent id : Nat} (hparent : arena.Reached parent)
    (hid : id ∈ arena.childrenAt parent) : arena.Reached id := by
  obtain ⟨location, rfl, howns⟩ := mem_childrenAt_iff_owns.mp hid
  exact .nested hparent howns

/-- A node is listed once. -/
theorem ownersIn_pairwise (id : Nat) (graph : Subgraph) :
    (ownersIn id graph).Pairwise fun first second => first.2 ≠ second.2 := by
  have hplaces : ∀ {α : Type} (items : List α),
      items.zipIdx.Pairwise fun first second => first.2 < second.2 := by
    intro α items
    have hrange : (List.range' 0 items.length).Pairwise (· < ·) := List.pairwise_lt_range'
    rwa [← List.zipIdx_map_snd, List.pairwise_map] at hrange
  rw [ownersIn, List.pairwise_flatMap]
  constructor
  · rintro ⟨state, place⟩ _
    rw [List.pairwise_filterMap]
    refine (hplaces state.nodes).imp ?_
    rintro ⟨first, index⟩ ⟨second, other⟩ hlt _ hfirst _ hsecond heq
    obtain ⟨_, _, rfl⟩ := Option.map_eq_some_iff.mp hfirst
    obtain ⟨_, _, rfl⟩ := Option.map_eq_some_iff.mp hsecond
    exact hlt.ne (congrArg Location.node heq)
  · refine (hplaces graph.states).imp ?_
    rintro ⟨first, place⟩ ⟨second, other⟩ hlt _ hfirst _ hsecond heq
    obtain ⟨_, _, hfirst⟩ := List.mem_filterMap.mp hfirst
    obtain ⟨_, _, hsecond⟩ := List.mem_filterMap.mp hsecond
    obtain ⟨_, _, rfl⟩ := Option.map_eq_some_iff.mp hfirst
    obtain ⟨_, _, rfl⟩ := Option.map_eq_some_iff.mp hsecond
    exact hlt.ne (congrArg Location.state heq)

namespace FormsTree

/-- In a tree nothing that is reached nests the root. -/
theorem not_mem_childrenAt (h : arena.FormsTree) {parent : Nat} (hparent : arena.Reached parent) :
    0 ∉ arena.childrenAt parent := by
  intro hmem
  obtain ⟨location, rfl, howns⟩ := mem_childrenAt_iff_owns.mp hmem
  exact h.root location hparent howns

/-- In a tree a graph is owned at one reached location at most. -/
theorem location_eq (h : arena.FormsTree) {first second : Location} {id : Nat}
    (hfirst : arena.Reached first.graph) (hsecond : arena.Reached second.graph)
    (howns : arena.Owns first id) (hother : arena.Owns second id) : first = second := by
  have hne : id ≠ 0 := by
    rintro rfl
    exact h.root first hfirst howns
  exact (h.owned id (.nested hfirst howns) hne).unique ⟨hfirst, howns⟩ ⟨hsecond, hother⟩

/-- In a tree no reached graph nests another one twice. -/
theorem childrenAt_nodup (h : arena.FormsTree) {parent : Nat} (hparent : arena.Reached parent) :
    (arena.childrenAt parent).Nodup := by
  cases hgraph : arena.graphs[parent]? with
  | none => simp [childrenAt, hgraph]
  | some graph =>
      have howns : ∀ owner ∈ ownersIn parent graph,
          arena.Reached owner.2.graph ∧ arena.Owns owner.2 owner.1 := by
        intro owner howner
        obtain ⟨rfl, _⟩ := mem_ownersIn.mp howner
        exact ⟨hparent, owns_iff.mpr ⟨graph, hgraph, howner⟩⟩
      rw [childrenAt, hgraph, Option.elim_some, ← ownersIn_fst parent, List.Nodup,
        List.pairwise_map]
      refine (ownersIn_pairwise parent graph).imp_of_mem fun hfirst hsecond hne heq => hne ?_
      obtain ⟨hreached, hfirst⟩ := howns _ hfirst
      obtain ⟨hother, hsecond⟩ := howns _ hsecond
      exact h.location_eq hreached hother hfirst (heq ▸ hsecond)

/-- The state of a walk: what has been met and what waits are graphs below the root, none of them
twice, and each was put there by a graph that has been met. -/
structure Pending (arena : Arena) (met waiting : List Nat) : Prop where
  nodup : (met ++ waiting).Nodup
  reached : ∀ id ∈ met ++ waiting, arena.Reached id
  source : ∀ id ∈ met ++ waiting, id = 0 ∨ ∃ parent ∈ met, id ∈ arena.childrenAt parent

/-- Visiting the next graph and putting its children in front keeps what is pending in order. -/
theorem Pending.visit (htree : arena.FormsTree) {met waiting : List Nat} {id : Nat}
    (h : Pending arena met (id :: waiting)) :
    Pending arena (met ++ [id]) (arena.childrenAt id ++ waiting) := by
  have hid : arena.Reached id := h.reached id (by simp)
  have hperm : (met ++ [id] ++ (arena.childrenAt id ++ waiting)).Perm
      (met ++ id :: waiting ++ arena.childrenAt id) := by
    simpa using (List.perm_append_comm.cons id).append_left met
  refine ⟨hperm.nodup_iff.mpr (List.nodup_append.mpr ⟨h.nodup, htree.childrenAt_nodup hid, ?_⟩),
    ?_, ?_⟩
  · rintro child hmem _ hchild rfl
    rcases h.source child hmem with rfl | ⟨parent, hparent, hother⟩
    · exact htree.not_mem_childrenAt hid hchild
    · -- The child has one owner, so the graph would have been met before.
      obtain ⟨first, rfl, hfirst⟩ := mem_childrenAt_iff_owns.mp hchild
      obtain ⟨second, rfl, hsecond⟩ := mem_childrenAt_iff_owns.mp hother
      have hreached := h.reached second.graph (List.mem_append_left _ hparent)
      obtain rfl := htree.location_eq hid hreached hfirst hsecond
      exact (List.nodup_append.mp h.nodup).2.2 _ hparent _ List.mem_cons_self rfl
  · intro other hmem
    rcases List.mem_append.mp (hperm.subset hmem) with hold | hnew
    · exact h.reached other hold
    · exact hid.of_mem_childrenAt hnew
  · intro other hmem
    rcases List.mem_append.mp (hperm.subset hmem) with hold | hnew
    · refine (h.source other hold).imp_right ?_
      rintro ⟨parent, hparent, hchild⟩
      exact ⟨parent, List.mem_append_left _ hparent, hchild⟩
    · exact .inr ⟨id, by simp, hnew⟩

/-- There are at most as many reached graphs as there are graphs. -/
theorem length_le (h : arena.FormsTree) {ids : List Nat} (hnodup : ids.Nodup)
    (hreached : ∀ id ∈ ids, arena.Reached id) : ids.length ≤ arena.graphs.length := by
  have hsubset : ids ⊆ List.range arena.graphs.length := fun id hid =>
    List.mem_range.mpr (h.inside id (hreached id hid))
  simpa using (hnodup.subperm hsubset).length_le

/-- From every state there is a walk to the end: a turn leaves fewer graphs to meet. -/
theorem exists_walks (h : arena.FormsTree) {met waiting : List Nat}
    (hpending : Pending arena met waiting) :
    ∃ rest, Walks arena.childrenAt waiting rest ∧ (met ++ rest).Nodup ∧
      ∀ id ∈ rest, arena.Reached id := by
  induction hleft : arena.graphs.length - met.length generalizing met waiting with
  | zero =>
      have hlength := h.length_le hpending.nodup hpending.reached
      rw [List.length_append] at hlength
      obtain rfl : waiting = [] := List.length_eq_zero_iff.mp (by omega)
      exact ⟨[], .done, hpending.nodup, by simp⟩
  | succ left ih =>
      cases waiting with
      | nil => exact ⟨[], .done, hpending.nodup, by simp⟩
      | cons id waiting =>
          have hnext := hpending.visit h
          obtain ⟨rest, hwalk, hnodup, hreached⟩ := ih hnext (by simp; omega)
          refine ⟨id :: rest, .visit hwalk, by simpa using hnodup, ?_⟩
          intro other hother
          rcases List.mem_cons.mp hother with rfl | hother
          · exact hpending.reached other (by simp)
          · exact hreached other hother

/-- The walk that gives the order of the arena meets the tree. -/
theorem reaches (h : arena.FormsTree) : arena.Reaches arena.order := by
  have hstart : Pending arena [] [0] := ⟨by simp, by simpa using .root, by simp⟩
  obtain ⟨met, hwalk, hnodup, hreached⟩ := h.exists_walks hstart
  have hinside := fun id hid => h.inside id (hreached id hid)
  rw [order_eq hwalk (by simpa using hnodup) hinside]
  exact ⟨hwalk, by simpa using hnodup, hinside⟩

end FormsTree

namespace Reaches

variable {met : List Nat}

/-- The walk meets exactly the graphs that are reached. -/
theorem mem_iff_reached (h : arena.Reaches met) {id : Nat} : id ∈ met ↔ arena.Reached id := by
  constructor
  · have hwalk : ∀ {waiting rest}, Walks arena.childrenAt waiting rest →
        (∀ id ∈ waiting, arena.Reached id) → ∀ id ∈ rest, arena.Reached id := by
      intro waiting rest hwalk
      induction hwalk with
      | done => exact fun hstart => hstart
      | @visit first waiting rest _ ih =>
          intro hstart id hid
          have hfirst := hstart first List.mem_cons_self
          rcases List.mem_cons.mp hid with rfl | hid
          · exact hfirst
          · refine ih (fun other hother => ?_) id hid
            rcases List.mem_append.mp hother with hchild | hother
            · exact hfirst.of_mem_childrenAt hchild
            · exact hstart other (List.mem_cons_of_mem _ hother)
    exact hwalk h.walk (by simpa using .root) id
  · intro hreached
    induction hreached with
    | root =>
        obtain ⟨rest, rfl⟩ := h.head
        exact List.mem_cons_self
    | nested _ howns ih =>
        exact (h.walk.mem_iff _).mpr
          (.inr ⟨_, ih, mem_childrenAt_iff_owns.mpr ⟨_, rfl, howns⟩⟩)

/-- A walk that meets no graph twice goes over a tree. -/
theorem formsTree (h : arena.Reaches met) : arena.FormsTree := by
  have hnodup : (0 :: met.flatMap arena.childrenAt).Nodup := h.walk.perm.nodup_iff.mp h.nodup
  obtain ⟨hroot, hnodup⟩ := List.nodup_cons.mp hnodup
  obtain ⟨hnodup, hdisjoint⟩ := List.nodup_flatMap.mp hnodup
  have hchild : ∀ {location id}, arena.Reached location.graph → arena.Owns location id →
      location.graph ∈ met ∧ id ∈ arena.childrenAt location.graph := fun hreached howns =>
    ⟨h.mem_iff_reached.mpr hreached, mem_childrenAt_iff_owns.mpr ⟨_, rfl, howns⟩⟩
  refine ⟨fun id hid => h.inside id (h.mem_iff_reached.mpr hid), ?_, ?_⟩
  · intro location hreached howns
    exact hroot (List.mem_flatMap.mpr ⟨_, hchild hreached howns⟩)
  · intro id hid hne
    cases hid with
    | root => exact absurd rfl hne
    | @nested location _ hreached howns =>
        refine ⟨location, ⟨hreached, howns⟩, ?_⟩
        rintro other ⟨hother, howner⟩
        obtain ⟨hmet, hmem⟩ := hchild hreached howns
        obtain ⟨hmetOther, hmemOther⟩ := hchild hother howner
        -- Owners in two graphs would put the graph among the children of both.
        have hgraph : other.graph = location.graph := by
          have hsymm : Std.Symm (Function.onFun List.Disjoint arena.childrenAt) :=
            ⟨fun _ _ hapart => List.disjoint_symm hapart⟩
          by_contra hne
          exact hdisjoint.forall hmetOther hmet hne hmemOther hmem
        obtain ⟨graph, hfound, howner⟩ := owns_iff.mp howner
        obtain ⟨found, hsame, howns⟩ := owns_iff.mp howns
        rw [hgraph] at hfound howner
        obtain rfl := Option.some.inj (hfound.symm.trans hsame)
        have hlist := hnodup _ hmet
        rw [childrenAt, hsame, Option.elim_some, ← ownersIn_fst location.graph] at hlist
        exact Option.some.inj
          ((lookup_of_nodup hlist howner).symm.trans (lookup_of_nodup hlist howns))

end Reaches

end Arena

end DataflowEditor
