import DataflowEditor.Json.Basic

/-! # Canonical documents

Two documents that differ only in the order of members, at any depth, say the same. The canonical
form puts all members in the order of their keys, so that saying the same becomes equality.
-/

namespace DataflowEditor.Json

/-- The members in ascending order of their keys; members with one key keep their order. -/
def sortMembers (members : Fields) : Fields :=
  members.mergeSort fun a b => a.1 ≤ b.1

mutual

def canonical : Json → Json
  | .arr items => .arr (canonicalItems items)
  | .obj members => .obj (sortMembers (canonicalMembers members))
  | document => document

def canonicalItems : List Json → List Json
  | [] => []
  | v :: rest => v.canonical :: canonicalItems rest

def canonicalMembers : List (String × Json) → List (String × Json)
  | [] => []
  | (k, v) :: rest => (k, v.canonical) :: canonicalMembers rest

end

/-- Whether two documents differ at most in the order of members. -/
def Same (a b : Json) : Prop :=
  a.canonical = b.canonical

instance (a b : Json) : Decidable (Same a b) :=
  inferInstanceAs (Decidable (a.canonical = b.canonical))

end DataflowEditor.Json
