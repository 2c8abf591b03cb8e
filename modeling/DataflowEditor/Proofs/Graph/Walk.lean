import DataflowEditor.Graph.Order
import Mathlib.Data.List.Nodup
import Mathlib.Data.List.Range
import Mathlib.Data.List.Perm.Subperm

/-! # Depth-first walks

A walk takes the first of the graphs that wait and puts the children of that graph in front of the
others. The relation here says which graphs a walk meets, without a bound on their number; the
function that walks an arena agrees with it as soon as it may take as many steps as there are graphs
to meet. The children of a graph are any function of its index, so that an arena can be compared
with an edited one.
-/

namespace DataflowEditor

/-- The graphs that are met, in order, on a walk that starts with those that wait. -/
inductive Walks (children : Nat → List Nat) : List Nat → List Nat → Prop
  | done : Walks children [] []
  | visit {id : Nat} {waiting met : List Nat} :
      Walks children (children id ++ waiting) met → Walks children (id :: waiting) (id :: met)

namespace Walks

variable {children : Nat → List Nat}

/-- Walks from one group of roots and then another follow one another. -/
theorem append {first second met others : List Nat} (hfirst : Walks children first met)
    (hsecond : Walks children second others) :
    Walks children (first ++ second) (met ++ others) := by
  induction hfirst with
  | done => exact hsecond
  | visit _ ih =>
      rw [List.append_assoc] at ih
      exact .visit ih

/-- What waits behind is walked after everything in front of it. -/
theorem split {first second met : List Nat} (h : Walks children (first ++ second) met) :
    ∃ front back, met = front ++ back ∧ Walks children first front ∧
      Walks children second back := by
  generalize hall : first ++ second = all at h
  induction h generalizing first with
  | done =>
      obtain ⟨rfl, rfl⟩ := List.append_eq_nil_iff.mp hall
      exact ⟨[], [], rfl, .done, .done⟩
  | @visit id waiting met hrest ih =>
      cases first with
      | nil =>
          subst hall
          exact ⟨[], id :: met, rfl, .done, .visit hrest⟩
      | cons head tail =>
          obtain ⟨rfl, rfl⟩ := List.cons.inj hall
          obtain ⟨front, back, rfl, hfront, hback⟩ := ih (List.append_assoc _ _ _)
          exact ⟨head :: front, back, rfl, .visit hfront, hback⟩

/-- There is one walk from the graphs in hand. -/
theorem unique {waiting met other : List Nat} (h : Walks children waiting met)
    (hother : Walks children waiting other) : met = other := by
  induction h generalizing other with
  | done => cases hother; rfl
  | visit _ ih =>
      cases hother with
      | visit hrest => rw [ih hrest]

/-- A graph is met if it waits at first or is a child of one that is met, and as often as that. -/
theorem perm {waiting met : List Nat} (h : Walks children waiting met) :
    met.Perm (waiting ++ met.flatMap children) := by
  induction h with
  | done => exact .nil
  | @visit id waiting met _ ih =>
      rw [List.flatMap_cons, List.cons_append]
      refine .cons id (ih.trans ?_)
      rw [← List.append_assoc]
      exact List.perm_append_comm.append_right _

/-- A walk meets its roots and the children of what it meets. -/
theorem mem_iff {waiting met : List Nat} (h : Walks children waiting met) (id : Nat) :
    id ∈ met ↔ id ∈ waiting ∨ ∃ parent ∈ met, id ∈ children parent := by
  rw [h.perm.mem_iff, List.mem_append, List.mem_flatMap]

/-- A walk is renamed along with the children of the graphs it meets. -/
theorem rename {others : Nat → List Nat} {name : Nat → Nat} {waiting met : List Nat}
    (h : Walks children waiting met)
    (heq : ∀ id ∈ met, others (name id) = (children id).map name) :
    Walks others (waiting.map name) (met.map name) := by
  induction h with
  | done => exact .done
  | @visit id waiting met _ ih =>
      refine .visit ?_
      rw [heq id List.mem_cons_self, ← List.map_append]
      exact ih fun other hother => heq other (List.mem_cons_of_mem _ hother)

/-- With fewer children and fewer graphs to start with, a walk meets fewer graphs and keeps the
order of those it meets. -/
theorem sublist {fewer : Nat → List Nat} {waiting met start : List Nat}
    (h : Walks children waiting met) (hchildren : ∀ id, (fewer id).Sublist (children id))
    (hstart : start.Sublist waiting) : ∃ kept, kept.Sublist met ∧ Walks fewer start kept := by
  induction h generalizing start with
  | done =>
      rw [List.sublist_nil.mp hstart]
      exact ⟨[], .slnil, .done⟩
  | @visit id waiting met _ ih =>
      cases hstart with
      | cons _ htail =>
          obtain ⟨kept, hkept, hwalk⟩ := ih (htail.trans (List.sublist_append_right _ _))
          exact ⟨kept, hkept.cons id, hwalk⟩
      | cons_cons _ htail =>
          obtain ⟨kept, hkept, hwalk⟩ := ih ((hchildren id).append htail)
          exact ⟨id :: kept, hkept.cons_cons id, .visit hwalk⟩

/-- With one more child, the walk also meets what lies below that child, once for every time it
meets the parent. -/
theorem insert {more : Nat → List Nat} {parent new : Nat} {front back inner waiting met : List Nat}
    (h : Walks children waiting met) (hparent : children parent = front ++ back)
    (hmore : more parent = front ++ new :: back)
    (hothers : ∀ id ∈ met, id ≠ parent → more id = children id) (hinner : Walks more [new] inner) :
    ∃ all, Walks more waiting all ∧
      all.Perm (met ++ (List.replicate (met.count parent) inner).flatten) := by
  induction h with
  | done => exact ⟨[], .done, by simp⟩
  | @visit id waiting met _ ih =>
      obtain ⟨all, hwalk, hperm⟩ := ih fun other hother =>
        hothers other (List.mem_cons_of_mem _ hother)
      by_cases hid : id = parent
      · subst hid
        rw [hparent, List.append_assoc] at hwalk
        obtain ⟨first, second, rfl, hfirst, hsecond⟩ := hwalk.split
        refine ⟨id :: (first ++ (inner ++ second)), .visit ?_, ?_⟩
        · rw [hmore]
          simpa using hfirst.append (hinner.append hsecond)
        · rw [List.count_cons_self, List.replicate_succ, List.flatten_cons, List.cons_append]
          refine .cons id ?_
          -- The new block moves from behind the first part to the front.
          have hfront : (first ++ (inner ++ second)).Perm (inner ++ (first ++ second)) := by
            rw [← List.append_assoc, ← List.append_assoc]
            exact List.perm_append_comm.append_right second
          have hback : (inner ++ (met ++ (List.replicate (met.count id) inner).flatten)).Perm
              (met ++ (inner ++ (List.replicate (met.count id) inner).flatten)) := by
            rw [← List.append_assoc, ← List.append_assoc]
            exact List.perm_append_comm.append_right _
          exact (hfront.trans (hperm.append_left inner)).trans hback
      · refine ⟨id :: all, .visit ?_, ?_⟩
        · rwa [hothers id List.mem_cons_self hid]
        · rw [List.count_cons_of_ne hid]
          exact hperm.cons id

/-- Up to the first graph whose children may differ, two walks meet the same graphs. -/
theorem front_of_agree {more : Nat → List Nat} {parent : Nat} {front back waiting all : List Nat}
    (h : Walks children waiting (front ++ parent :: back)) (hmore : Walks more waiting all)
    (hagree : ∀ id ∈ front, more id = children id) : ∃ rest, all = front ++ parent :: rest := by
  induction front generalizing waiting all with
  | nil =>
      cases h with
      | visit _ =>
          cases hmore with
          | visit _ => exact ⟨_, rfl⟩
  | cons id front ih =>
      cases h with
      | visit hrest =>
          cases hmore with
          | visit hothers =>
              rw [hagree id List.mem_cons_self] at hothers
              obtain ⟨rest, rfl⟩ := ih hrest hothers fun other hother =>
                hagree other (List.mem_cons_of_mem _ hother)
              exact ⟨rest, rfl⟩

/-- Where graphs are met in ascending order, a child comes after its parent. -/
theorem lt_of_mem_children {waiting met : List Nat} (h : Walks children waiting met)
    (hsorted : met.Pairwise (· < ·)) {parent id : Nat} (hparent : parent ∈ met)
    (hid : id ∈ children parent) : parent < id := by
  induction h with
  | done => simp at hparent
  | @visit first waiting met hrest ih =>
      obtain ⟨hfirst, hsorted⟩ := List.pairwise_cons.mp hsorted
      rcases List.mem_cons.mp hparent with rfl | hparent
      · exact hfirst id ((hrest.mem_iff id).mpr (.inl (List.mem_append_left _ hid)))
      · exact ih hsorted hparent

/-! ## Walks over consecutive indices -/

/-- A walk in the order of the indices splits into two such walks. -/
theorem split_range' {first second : List Nat} {start count : Nat}
    (h : Walks children (first ++ second) (List.range' start count)) :
    ∃ front back, count = front + back ∧ Walks children first (List.range' start front) ∧
      Walks children second (List.range' (start + front) back) := by
  obtain ⟨met, others, heq, hfirst, hsecond⟩ := h.split
  obtain ⟨front, hfront, rfl, rfl⟩ := List.range'_eq_append_iff.mp heq
  refine ⟨front, count - front, by omega, hfirst, ?_⟩
  simpa using hsecond

/-- Two walks in the order of the indices, one behind the other, make one. -/
theorem append_range' {first second : List Nat} {start front back : Nat}
    (hfirst : Walks children first (List.range' start front))
    (hsecond : Walks children second (List.range' (start + front) back)) :
    Walks children (first ++ second) (List.range' start (front + back)) := by
  have h := hfirst.append hsecond
  rwa [List.range'_append_1] at h

/-- A walk over consecutive indices starts with the graph that waits first. -/
theorem head_range' {id start count : Nat} {waiting : List Nat}
    (h : Walks children (id :: waiting) (List.range' start count)) :
    ∃ rest, count = rest + 1 ∧ id = start ∧
      Walks children (children start ++ waiting) (List.range' (start + 1) rest) := by
  cases count with
  | zero => cases h
  | succ rest =>
      rw [List.range'_succ] at h
      cases h with
      | visit hrest => exact ⟨rest, rfl, rfl, hrest⟩

end Walks

namespace Arena

/-- The children of the graph at an index; an index beyond the arena has none. -/
def childrenAt (arena : Arena) (id : Nat) : List Nat :=
  arena.graphs[id]?.elim [] Subgraph.children

/-- The bounded walk is complete when it may meet as many graphs as there are. -/
theorem walk_eq {arena : Arena} {waiting met : List Nat} (h : Walks arena.childrenAt waiting met)
    {fuel : Nat} (hfuel : met.length ≤ fuel) : arena.walk fuel waiting = met := by
  induction h generalizing fuel with
  | done => cases fuel <;> rfl
  | visit _ ih =>
      cases fuel with
      | zero => simp at hfuel
      | succ fuel => exact congrArg _ (ih (Nat.le_of_succ_le_succ hfuel))

/-- A walk that meets no graph twice, and none outside the arena, gives the order of the arena. -/
theorem order_eq {arena : Arena} {met : List Nat} (h : Walks arena.childrenAt [0] met)
    (hnodup : met.Nodup) (hinside : ∀ id ∈ met, id < arena.graphs.length) :
    arena.order = met := by
  apply walk_eq h
  have hsubset : met ⊆ List.range arena.graphs.length := fun id hid =>
    List.mem_range.mpr (hinside id hid)
  simpa using (hnodup.subperm hsubset).length_le

end Arena

end DataflowEditor
