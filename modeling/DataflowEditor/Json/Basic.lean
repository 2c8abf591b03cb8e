import DataflowEditor.Number.Basic

/-! # Documents

A document is null, a truth value, a number, a text, an array or an object. An object keeps its
members in the order in which they were written. This file holds the type, its decidable equality
and the questions that readers of a document ask of it.
-/

namespace DataflowEditor

inductive Json where
  | null
  | bool (value : Bool)
  | num (value : Number)
  | str (value : String)
  | arr (items : List Json)
  | obj (members : List (String × Json))
deriving Inhabited

/-- The members of an object. A key is looked up from the front. -/
abbrev Fields := List (String × Json)

namespace Json

mutual

def decEq : (a b : Json) → Decidable (a = b)
  | .null, .null => isTrue rfl
  | .bool a, .bool b =>
    if h : a = b then isTrue (by rw [h]) else isFalse (by simpa using h)
  | .num a, .num b =>
    if h : a = b then isTrue (by rw [h]) else isFalse (by simpa using h)
  | .str a, .str b =>
    if h : a = b then isTrue (by rw [h]) else isFalse (by simpa using h)
  | .arr a, .arr b =>
    match decEqItems a b with
    | isTrue h => isTrue (by rw [h])
    | isFalse h => isFalse (by simpa using h)
  | .obj a, .obj b =>
    match decEqMembers a b with
    | isTrue h => isTrue (by rw [h])
    | isFalse h => isFalse (by simpa using h)
  | .null, .bool _ | .null, .num _ | .null, .str _ | .null, .arr _ | .null, .obj _
  | .bool _, .null | .bool _, .num _ | .bool _, .str _ | .bool _, .arr _ | .bool _, .obj _
  | .num _, .null | .num _, .bool _ | .num _, .str _ | .num _, .arr _ | .num _, .obj _
  | .str _, .null | .str _, .bool _ | .str _, .num _ | .str _, .arr _ | .str _, .obj _
  | .arr _, .null | .arr _, .bool _ | .arr _, .num _ | .arr _, .str _ | .arr _, .obj _
  | .obj _, .null | .obj _, .bool _ | .obj _, .num _ | .obj _, .str _ | .obj _, .arr _ =>
    isFalse (by simp)

def decEqItems : (a b : List Json) → Decidable (a = b)
  | [], [] => isTrue rfl
  | [], _ :: _ | _ :: _, [] => isFalse (by simp)
  | v :: vs, w :: ws =>
    match decEq v w, decEqItems vs ws with
    | isTrue h, isTrue hs => isTrue (by rw [h, hs])
    | isFalse h, _ => isFalse (by simp [h])
    | _, isFalse hs => isFalse (by simp [hs])

def decEqMembers : (a b : List (String × Json)) → Decidable (a = b)
  | [], [] => isTrue rfl
  | [], _ :: _ | _ :: _, [] => isFalse (by simp)
  | (k, v) :: ms, (l, w) :: ns =>
    if hk : k = l then
      match decEq v w, decEqMembers ms ns with
      | isTrue h, isTrue hs => isTrue (by rw [hk, h, hs])
      | isFalse h, _ => isFalse (by simp [h])
      | _, isFalse hs => isFalse (by simp [hs])
    else isFalse (by simp [hk])

end

instance : DecidableEq Json := decEq

/-- A natural number as a document. -/
def nat (n : Nat) : Json :=
  .num (.int n)

def int (n : Int) : Json :=
  .num (.int n)

def isNull : Json → Bool
  | .null => true
  | _ => false

def asString? : Json → Option String
  | .str s => some s
  | _ => none

def asArray? : Json → Option (List Json)
  | .arr items => some items
  | _ => none

def asObject? : Json → Option Fields
  | .obj members => some members
  | _ => none

/-- An integer from zero up that fits 64 bits. A double is none, whatever its value. -/
def asNat? : Json → Option Nat
  | .num (.int i) => if 0 ≤ i ∧ i < wordCount then some i.toNat else none
  | _ => none

/-- An integer that fits 64 bits with a sign. -/
def asInt? : Json → Option Int
  | .num (.int i) => if -halfWordCount ≤ i ∧ i < halfWordCount then some i else none
  | _ => none

/-- What a document is, as a message names it. -/
def kind : Json → String
  | .null => "null"
  | .bool _ => "a boolean"
  | .num _ => "a number"
  | .str _ => "a string"
  | .arr _ => "an array"
  | .obj _ => "an object"

end Json

namespace Fields

/-- The value of the first member with this key. -/
def value? (fields : Fields) (key : String) : Option Json :=
  match fields with
  | [] => none
  | (k, v) :: rest => if k = key then some v else value? rest key

def has (fields : Fields) (key : String) : Bool :=
  (fields.value? key).isSome

/-- The other members. -/
def without (fields : Fields) (key : String) : Fields :=
  fields.filter fun member => member.1 ≠ key

/-- Set a member: in its place where the key exists, at the end otherwise. The key occurs once
then. -/
def put (fields : Fields) (key : String) (value : Json) : Fields :=
  match fields with
  | [] => [(key, value)]
  | (k, v) :: rest =>
    if k = key then (k, value) :: without rest key else (k, v) :: put rest key value

/-- Set every member of `other` in turn. -/
def extend (fields other : Fields) : Fields :=
  other.foldl (fun all member => all.put member.1 member.2) fields

/-- The text of a member, empty where there is none. -/
def text (fields : Fields) (key : String) : String :=
  ((fields.value? key).bind Json.asString?).getD ""

variable (fields : Fields) (key other : String) (value : Json)

@[simp]
theorem value?_without_self : (fields.without key).value? key = none := by
  induction fields with
  | nil => rfl
  | cons member rest ih =>
    obtain ⟨k, v⟩ := member
    by_cases h : k = key
    · simpa [without, h] using ih
    · simpa [without, h, value?] using ih

theorem value?_without_of_ne (h : other ≠ key) :
    (fields.without key).value? other = fields.value? other := by
  induction fields with
  | nil => rfl
  | cons member rest ih =>
    obtain ⟨k, v⟩ := member
    by_cases hk : k = key
    · subst hk
      simpa [without, value?, Ne.symm h] using ih
    · simp only [without, List.filter_cons, ne_eq, hk, not_false_eq_true, decide_true, if_true,
        value?] at ih ⊢
      rw [ih]

@[simp]
theorem value?_put_self : (fields.put key value).value? key = some value := by
  induction fields with
  | nil => simp [put, value?]
  | cons member rest ih =>
    obtain ⟨k, v⟩ := member
    by_cases h : k = key <;> simp [put, value?, h, ih]

theorem value?_put_of_ne (h : other ≠ key) :
    (fields.put key value).value? other = fields.value? other := by
  induction fields with
  | nil => simp [put, value?, Ne.symm h]
  | cons member rest ih =>
    obtain ⟨k, v⟩ := member
    by_cases hk : k = key
    · subst hk
      simp [put, value?, Ne.symm h, value?_without_of_ne rest k other h]
    · simp only [put, hk, if_false, value?, ih]

end Fields

namespace Json

/-- The member of an object; no other document has members. -/
def member? (document : Json) (key : String) : Option Json :=
  document.asObject?.bind fun members => Fields.value? members key

end Json

end DataflowEditor
