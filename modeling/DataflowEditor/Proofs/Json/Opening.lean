import DataflowEditor.Json.Draft
import DataflowEditor.Proofs.Text.Utf8

/-! # How a document opens

The first character behind the space in front tells whether a document is an object: it is an
opening brace. Where no document can begin with the character that stands there, nothing is read.
-/

namespace DataflowEditor

namespace Draft

variable {limit : Nat}

def isArray : Draft → Bool
  | .array _ _ _ => true
  | _ => false

def isObject : Draft → Bool
  | .object _ _ _ => true
  | _ => false

/-- What is read behind an opening bracket is an array, be it whole or not. -/
theorem readItems_isArray (fuel depth : Nat) (before : List Draft) (source : Source) :
    (readItems limit fuel depth before source).1.isArray = true := by
  induction fuel generalizing before source with
  | zero => rw [readItems]; rfl
  | succ fuel ih =>
      rw [readItems]
      split
      · rfl
      · split_ifs
        · split
          · exact ih _ _
          · rfl
          · rfl
        · rfl

/-- What is read behind an opening brace is an object, be it whole or not. -/
theorem readMembers_isObject (fuel depth : Nat) (before : List (Option String × Draft))
    (source : Source) : (readMembers limit fuel depth before source).1.isObject = true := by
  induction fuel generalizing before source with
  | zero => rw [readMembers]; rfl
  | succ fuel ih =>
      rw [readMembers]
      split
      · split
        · rfl
        · split
          · simp only
            split_ifs
            · split
              · exact ih _ _
              · rfl
              · rfl
            · rfl
          · rfl
      · rfl

theorem isObject_of_isArray {draft : Draft} (h : draft.isArray = true) :
    draft.isObject = false := by
  cases draft with
  | array => rfl
  | _ => cases h

theorem ofWord_isObject (draft : Draft) (word : List Char) (source : Source)
    (h : draft.isObject = false) : (ofWord draft word source).1.isObject = false := by
  rw [ofWord]
  split
  · exact h
  · rfl

/-- Only a brace opens an object. -/
theorem readValue_isObject (fuel depth : Nat) (source : Source) :
    (readValue limit (fuel + 1) depth source).1.isObject =
      decide ((skipSpace source).head? = some (some '\x7b')) := by
  rw [readValue]
  split
  next hsource =>
    rw [hsource]
    split
    · rfl
    · exact isObject_of_isArray (readItems_isArray _ _ _ _)
  next hsource =>
    rw [hsource]
    split
    · rfl
    · exact readMembers_isObject _ _ _ _
  next hsource =>
    rw [hsource]
    split <;> rfl
  next hsource =>
    rw [hsource]
    exact ofWord_isObject _ _ _ rfl
  next hsource =>
    rw [hsource]
    exact ofWord_isObject _ _ _ rfl
  next hsource =>
    rw [hsource]
    exact ofWord_isObject _ _ _ rfl
  next hobject _ _ _ _ =>
    have hhead : (skipSpace source).head? ≠ some (some '\x7b') := by
      intro heq
      obtain ⟨rest, hsource⟩ := List.head?_eq_some_iff.mp heq
      exact hobject rest hsource
    rw [decide_eq_false hhead]
    split <;> rfl

/-- Neither the end of a source nor a character that begins no document gives anything to read. -/
theorem readValue_broken (fuel depth : Nat) {source : Source}
    (h : ∀ c ∈ (skipSpace source).head?, c = some '\x0c' ∨ c = some '\x1f') :
    (readValue limit (fuel + 1) depth source).1 = .broken := by
  have hliteral : readLiteral (skipSpace source) = none := by
    cases hsource : skipSpace source with
    | nil => rfl
    | cons c rest =>
        rw [hsource] at h
        rcases h c rfl with rfl | rfl
        · simp [readLiteral, readMagnitude, digits, isDigit]
        · simp [readLiteral, readMagnitude, digits, isDigit]
  rw [readValue]
  split
  -- The cases of the other characters that begin a document do not arise.
  case h_7 => rw [hliteral]
  all_goals
    next hsource => simp [hsource] at h

end Draft

namespace Json

/-- A source with a document holds it in the draft of its value. -/
theorem json_of_parse? {source : Source} {document : Json} (h : parse? source = some document) :
    (Draft.readValue depthLimit (2 * source.length + 2) 0 source).1.json? = some document := by
  rw [parse?, parseWithin?, Draft.read] at h
  simp only at h
  split_ifs at h
  exact h

/-- A draft without faults is an object exactly if its document is one. -/
theorem isObject_of_json? {draft : Draft} {document : Json} (h : draft.json? = some document) :
    draft.isObject = true ↔ ∃ fields, document = .obj fields := by
  cases draft with
  | object deep members closed =>
      rw [Draft.json?] at h
      split_ifs at h
      obtain ⟨fields, _, rfl⟩ := Option.map_eq_some_iff.mp h
      exact ⟨fun _ => ⟨fields, rfl⟩, fun _ => rfl⟩
  | array deep items closed =>
      rw [Draft.json?] at h
      split_ifs at h
      obtain ⟨items, _, rfl⟩ := Option.map_eq_some_iff.mp h
      simp [Draft.isObject]
  | null =>
      obtain rfl := Option.some.inj h
      simp [Draft.isObject]
  | bool value =>
      obtain rfl := Option.some.inj h
      simp [Draft.isObject]
  | number value =>
      obtain ⟨n, _, rfl⟩ := Option.map_eq_some_iff.mp h
      simp [Draft.isObject]
  | text value =>
      obtain ⟨text, _, rfl⟩ := Option.map_eq_some_iff.mp h
      simp [Draft.isObject]
  | broken => cases h

/-- A document is an object if and only if it opens with a brace. -/
theorem parse?_obj_iff {source : Source} {document : Json} (h : parse? source = some document) :
    (∃ fields, document = .obj fields) ↔
      (Draft.skipSpace source).head? = some (some '\x7b') := by
  rw [← isObject_of_json? (json_of_parse? h), Draft.readValue_isObject, decide_eq_true_iff]

/-- A source that begins with a form feed or with the mark of a packed file holds no document. -/
theorem parse?_eq_none {source : Source}
    (h : ∀ c ∈ (Draft.skipSpace source).head?, c = some '\x0c' ∨ c = some '\x1f') :
    parse? source = none := by
  cases hparse : parse? source with
  | none => rfl
  | some document =>
      have hjson := json_of_parse? hparse
      rw [Draft.readValue_broken _ _ h] at hjson
      cases hjson

end Json

end DataflowEditor
