import DataflowEditor.Graph.Encode
import DataflowEditor.Proofs.Json.Fields
import Mathlib.Data.List.Dedup

/-! # The table of scopes

A state lists its nodes by the scope they lie in. The table is built one node after the other and
kept in the order of scopes; what it comes to does not depend on that. Every scope in which a node
lies has one entry, and the entry names the places of its nodes in ascending order.
-/

namespace DataflowEditor

namespace State

/-! ## Building the table -/

/-- A table groups the places of a list by the scope that stands there. -/
structure Groups (table : List (Int × List Nat)) (listed : List Int) : Prop where
  ordered : table.Pairwise fun first second => first.1 < second.1
  entry : ∀ scope members,
    (scope, members) ∈ table ↔ scope ∈ listed ∧ members = listed.idxsOf scope

theorem mem_addToScope_fst {scope : Int} {node : Nat} {table : List (Int × List Nat)}
    {entry : Int × List Nat} (h : entry ∈ addToScope scope node table) :
    entry.1 = scope ∨ ∃ other ∈ table, other.1 = entry.1 := by
  induction table with
  | nil => simp_all [addToScope]
  | cons other rest ih =>
      unfold addToScope at h
      grind

theorem addToScope_ordered {scope : Int} {node : Nat} {table : List (Int × List Nat)}
    (h : table.Pairwise fun first second => first.1 < second.1) :
    (addToScope scope node table).Pairwise fun first second => first.1 < second.1 := by
  induction table with
  | nil => exact List.pairwise_singleton _ _
  | cons other rest ih =>
      obtain ⟨hleast, hrest⟩ := List.pairwise_cons.mp h
      unfold addToScope
      split
      · exact List.pairwise_cons.mpr ⟨hleast, hrest⟩
      · split
        next hbelow =>
          refine List.pairwise_cons.mpr ⟨fun entry hentry => ?_, h⟩
          rcases List.mem_cons.mp hentry with rfl | hentry
          · exact hbelow
          · exact Int.lt_trans hbelow (hleast entry hentry)
        next hne hnot =>
          refine List.pairwise_cons.mpr ⟨fun entry hentry => ?_, ih hrest⟩
          rcases mem_addToScope_fst hentry with heq | ⟨known, hknown, heq⟩
          · dsimp only
            omega
          · exact heq ▸ hleast known hknown

/-- A node is added to the entry of its scope, or to a new one, and no other entry changes. -/
theorem mem_addToScope {scope other : Int} {node : Nat} {members : List Nat}
    {table : List (Int × List Nat)}
    (h : table.Pairwise fun first second => first.1 < second.1) :
    (other, members) ∈ addToScope scope node table ↔
      (other ≠ scope ∧ (other, members) ∈ table) ∨
      (other = scope ∧ ((∃ known, (scope, known) ∈ table ∧ members = known ++ [node]) ∨
        ((∀ known, (scope, known) ∉ table) ∧ members = [node]))) := by
  induction table with
  | nil => simp [addToScope]
  | cons entry rest ih =>
      obtain ⟨hleast, hrest⟩ := List.pairwise_cons.mp h
      obtain ⟨first, known⟩ := entry
      have habsent : ∀ below ≤ first, ∀ old, (below, old) ∉ rest := fun below hbelow old hold => by
        have hlt := hleast (below, old) hold
        dsimp only at hlt
        omega
      unfold addToScope
      split
      next heq =>
        subst heq
        grind
      next hne =>
        split
        next hbelow => grind
        next hnot =>
          have hih := ih hrest
          simp only [List.mem_cons, Prod.mk.injEq, hih]
          grind

/-- One more node is listed under its scope and nowhere else. -/
theorem Groups.add {table : List (Int × List Nat)} {listed : List Int} (h : Groups table listed)
    (scope : Int) : Groups (addToScope scope listed.length table) (listed ++ [scope]) where
  ordered := addToScope_ordered h.ordered
  entry other members := by
    rw [mem_addToScope h.ordered]
    simp only [h.entry, List.idxsOf_append, List.idxsOf_cons, List.idxsOf_nil, List.mem_append,
      List.mem_singleton]
    by_cases hother : other = scope
    · subst hother
      by_cases hlisted : other ∈ listed
      · simp [hlisted]
      · have hnone : listed.idxsOf other = [] :=
          List.idxsOf_eq_nil_iff.mpr fun found hfound => beq_false_of_ne fun heq =>
            hlisted (heq ▸ hfound)
        simp [hlisted, hnone]
    · simp [hother, Ne.symm hother]

theorem Groups.scopesFrom {table : List (Int × List Nat)} {listed : List Int}
    (h : Groups table listed) (nodes : List Node) :
    Groups (scopesFrom table listed.length nodes) (listed ++ nodes.map scopeOf) := by
  induction nodes generalizing table listed with
  | nil => simpa [State.scopesFrom] using h
  | cons node rest ih =>
      have hrest := ih (h.add (scopeOf node))
      rw [List.length_append, List.append_assoc] at hrest
      exact hrest

/-- The scopes of a state are the scopes of its nodes, each with the places of its nodes. -/
theorem scopes_groups (state : State) : Groups state.scopes (state.nodes.map scopeOf) := by
  have hempty : Groups [] [] := ⟨.nil, by simp⟩
  exact hempty.scopesFrom state.nodes

/-! ## What the table says -/

/-- The entries for a list of scopes: each scope that occurs, with the places where it stands. -/
def entriesOf (listed : List Int) : Fields :=
  listed.dedup.map fun scope =>
    (Text.decimalInt scope, .arr ((listed.idxsOf scope).map Json.nat))

theorem entriesOf_keys (listed : List Int) : ((entriesOf listed).map Prod.fst).Nodup := by
  have hkeys := (List.nodup_dedup listed).map Text.decimalInt_injective
  rwa [entriesOf, List.map_map]

/-- A table that groups the nodes has the entries of the specification, in some order. -/
theorem Groups.perm {table : List (Int × List Nat)} {listed : List Int} (h : Groups table listed) :
    (listed.dedup.map fun scope => (scope, listed.idxsOf scope)).Perm table := by
  refine (List.perm_ext_iff_of_nodup ?_ ?_).mpr fun entry => ?_
  · exact (List.nodup_dedup listed).map fun scope other heq => congrArg Prod.fst heq
  · exact h.ordered.imp fun hlt heq => Int.ne_of_lt hlt (congrArg Prod.fst heq)
  · obtain ⟨scope, members⟩ := entry
    rw [h.entry]
    simp [eq_comm]

/-- The table of a state has the entries for the scopes of its nodes. -/
theorem scopeTable_same (state : State) :
    Json.Same (.obj (entriesOf (state.nodes.map scopeOf))) state.scopeTable := by
  have hperm := state.scopes_groups.perm.map fun entry : Int × List Nat =>
    (Text.decimalInt entry.1, Json.arr (entry.2.map Json.nat))
  rw [List.map_map] at hperm
  exact .obj (Fields.same_of_perm hperm (entriesOf_keys _))

end State

end DataflowEditor
