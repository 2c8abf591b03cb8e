import DataflowEditor.Json.Basic

/-! # Nesting depth

How many arrays and objects enclose each other in a document. A part of a document is nested less
deep than the whole, which bounds every descent into it.
-/

namespace DataflowEditor.Json

mutual

def depth : Json → Nat
  | .arr items => depthItems items + 1
  | .obj members => depthMembers members + 1
  | _ => 0

def depthItems : List Json → Nat
  | [] => 0
  | v :: rest => max v.depth (depthItems rest)

def depthMembers : List (String × Json) → Nat
  | [] => 0
  | (_, v) :: rest => max v.depth (depthMembers rest)

end

theorem depth_le_of_mem {v : Json} {items : List Json} (h : v ∈ items) :
    v.depth ≤ depthItems items := by
  induction items with
  | nil => simp at h
  | cons w rest ih =>
    rcases List.mem_cons.mp h with rfl | hrest
    · exact Nat.le_max_left _ _
    · exact Nat.le_trans (ih hrest) (Nat.le_max_right _ _)

theorem depth_le_of_value? {members : Fields} {key : String} {v : Json}
    (h : members.value? key = some v) : v.depth ≤ depthMembers members := by
  induction members with
  | nil => simp [Fields.value?] at h
  | cons member rest ih =>
    obtain ⟨k, w⟩ := member
    by_cases hk : k = key
    · simp only [Fields.value?, hk, if_true, Option.some.injEq] at h
      exact h ▸ Nat.le_max_left _ _
    · simp only [Fields.value?, hk, if_false] at h
      exact Nat.le_trans (ih h) (Nat.le_max_right _ _)

end DataflowEditor.Json
