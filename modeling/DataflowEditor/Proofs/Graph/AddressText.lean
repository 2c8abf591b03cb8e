import DataflowEditor.Proofs.Graph.Addressing
import Mathlib.Data.Set.Function

/-! # Texts and addresses

An address is written as four integers with slashes between them, and a text of that grammar is read
as an address. What is read is written in one way and read again as it was. The addresses that texts
give, but for the one of nothing, are those of the elements whose places fit signed words.
-/

namespace DataflowEditor

namespace Address

variable {address : Address}

/-- The text of an address spells the address. -/
theorem spells_toText (h : address.IsSigned) : Spells address.toText address := by
  obtain ⟨hgraph, hstate, hnode, hedge⟩ := h
  refine ⟨_, _, _, _, ?_, isPart_decimalInt hgraph, isPart_decimalInt hstate,
    isPart_decimalInt hnode, isPart_decimalInt hedge⟩
  have hslash : ("/" : String).toList = ['/'] := rfl
  simp only [toText, String.toList_append, hslash, List.append_assoc, List.cons_append,
    List.nil_append]

/-- An address of a documented shape is read back from its text. -/
theorem ofText_toText (hsigned : address.IsSigned) (hshaped : address.Shaped) :
    ofText address.toText = .ok address :=
  ofText_eq_ok_iff.mpr ⟨spells_toText hsigned, hsigned, hshaped⟩

end Address

namespace Element

variable {element : Element}

theorem address_isSigned (h : element.FitsWords) : element.address.IsSigned := by
  have hunset : IsSignedWord (-1) := by decide
  have hword : ∀ {n : Nat}, n < halfWordCount → IsSignedWord n := fun hn =>
    isSignedWord_of_le (by omega) (Int.ofNat_lt.mpr hn)
  rw [address_eq h]
  cases element with
  | graph id => exact ⟨hword h, hunset, hunset, hunset⟩
  | state id place => exact ⟨hword h.1, hword h.2, hunset, hunset⟩
  | node id place index => exact ⟨hword h.1, hword h.2.1, hword h.2.2, hunset⟩
  | edge id place index =>
      cases place with
      | none => exact ⟨hword h.1, hunset, hunset, hword h.2⟩
      | some place => exact ⟨hword h.1, hword h.2.1, hunset, hword h.2.2⟩

theorem address_shaped (h : element.FitsWords) : element.address.Shaped := by
  rw [address_eq h]
  cases element with
  | edge id place index => cases place <;> constructor <;> grind
  | _ => constructor <;> grind

/-- The text of an element whose places fit signed words is that of its address. -/
theorem ofText_toText (h : element.FitsWords) :
    Address.ofText element.toText = .ok element.address :=
  Address.ofText_toText (address_isSigned h) (address_shaped h)

end Element

namespace Address

/-- Texts, addresses and elements correspond. -/
structure TextsExact : Prop where
  read : ∀ text address, ofText text = .ok address ↔
    Spells text address ∧ address.IsSigned ∧ address.Shaped
  separators : ∀ text address, ofText text = .ok address → text.toList.count '/' = 3
  refused : ∀ text error, ofText text = .error error →
    ∃ fault, error = .malformedAddress text fault
  reread : ∀ text address, ofText text = .ok address → ofText address.toText = .ok address
  /-- Nothing apart, every address that some text gives is that of exactly one element. -/
  elements : Set.BijOn Element.address {element | element.FitsWords}
    {address | address ≠ none ∧ ∃ text, ofText text = .ok address}

/-- Texts are read as addresses exactly by the grammar, and every element is read back from its
text. -/
theorem texts_exact : TextsExact where
  read _ _ := ofText_eq_ok_iff
  separators text address h := (ofText_eq_ok_iff.mp h).1.count_slash
  refused _ _ := ofText_eq_error
  reread text address h := by
    obtain ⟨_, hsigned, hshaped⟩ := ofText_eq_ok_iff.mp h
    exact ofText_toText hsigned hshaped
  elements := by
    refine ⟨fun element hfits => ?_, fun a ha b hb => Element.address_injective ha hb, ?_⟩
    · exact ⟨Element.address_ne_none hfits, element.toText, Element.ofText_toText hfits⟩
    · rintro address ⟨hset, text, htext⟩
      exact (ofText_eq_ok htext).resolve_left hset

/-- Blanks, signs and zeros in front are read, and are not written again. -/
example : (ofText "\t+0/ -01 /-1/ 007\n").map toText = .ok "0/-1/-1/7" := by decide

end Address

end DataflowEditor
