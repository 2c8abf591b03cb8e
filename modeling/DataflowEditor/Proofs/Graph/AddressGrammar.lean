import DataflowEditor.Graph.Address
import DataflowEditor.Proofs.Json.Records
import DataflowEditor.Proofs.Text.Integer
import Mathlib.Data.List.Basic

/-! # The grammar of addresses

The text of an address is four parts with slashes between them. Each part gives a signed word, with
blanks around it or not, and the four have to be in shape. Nothing else is read as an address, and
no part can hold a slash.
-/

namespace DataflowEditor

namespace Text

/-- Leading blanks are cut off, up to the first other character. -/
theorem dropWhile_isBlank_append {blanks rest : List Char}
    (hblanks : ∀ c ∈ blanks, isBlank c = true) (hrest : ∀ c ∈ rest.head?, isBlank c = false) :
    (blanks ++ rest).dropWhile isBlank = rest := by
  rw [List.dropWhile_append_of_pos hblanks]
  cases rest with
  | nil => rfl
  | cons c rest => rw [List.dropWhile_cons_of_neg (by simpa using hrest)]

/-- Trimming takes the blanks off at both ends and nothing else. -/
theorem trim_append {before core after : List Char} (hbefore : ∀ c ∈ before, isBlank c = true)
    (hcore : ∀ c ∈ core, isBlank c = false) (hafter : ∀ c ∈ after, isBlank c = true)
    (hsome : core ≠ []) : trim (before ++ core ++ after) = core := by
  have hfirst : ∀ c ∈ (core ++ after).head?, isBlank c = false := by
    rw [List.head?_append_of_ne_nil _ hsome]
    exact fun c hc => hcore c (List.mem_of_mem_head? hc)
  have hlast : ∀ c ∈ core.reverse.head?, isBlank c = false :=
    fun c hc => hcore c (List.mem_reverse.mp (List.mem_of_mem_head? hc))
  rw [trim, List.append_assoc, dropWhile_isBlank_append hbefore hfirst, List.reverse_append,
    dropWhile_isBlank_append (fun c hc => hafter c (List.mem_reverse.mp hc)) hlast,
    List.reverse_reverse]

/-- What is cut off a text is blank. -/
theorem exists_trim (text : List Char) : ∃ before after, text = before ++ trim text ++ after ∧
    (∀ c ∈ before, isBlank c = true) ∧ ∀ c ∈ after, isBlank c = true := by
  have hblank : ∀ chars : List Char, ∀ c ∈ chars.takeWhile isBlank, isBlank c = true :=
    fun chars => List.all_eq_true.mp List.all_takeWhile
  refine ⟨text.takeWhile isBlank, ((text.dropWhile isBlank).reverse.takeWhile isBlank).reverse,
    ?_, hblank text, fun c hc => hblank _ c (List.mem_reverse.mp hc)⟩
  rw [trim, List.append_assoc, ← List.reverse_append, List.takeWhile_append_dropWhile,
    List.reverse_reverse, List.takeWhile_append_dropWhile]

section Spells

variable {text : List Char} {i : Int} {c : Char}

theorem Spells.ne_nil (h : Spells text i) : text ≠ [] := by
  cases h with
  | plain hsome => exact hsome
  | plus => exact List.cons_ne_nil _ _
  | minus => exact List.cons_ne_nil _ _

theorem Spells.mem (h : Spells text i) (hc : c ∈ text) : c = '+' ∨ c = '-' ∨ c.isDigit = true := by
  cases h with
  | plain _ hdigits => exact .inr (.inr (hdigits c hc))
  | plus _ hdigits => exact (List.mem_cons.mp hc).imp_right fun hrest => .inr (hdigits c hrest)
  | minus _ hdigits => exact .inr ((List.mem_cons.mp hc).imp_right (hdigits c))

theorem Spells.isBlank_eq_false (h : Spells text i) (hc : c ∈ text) : isBlank c = false := by
  rcases h.mem hc with rfl | rfl | hdigit
  · decide
  · decide
  · have hrange : 48 ≤ c.toNat ∧ c.toNat ≤ 57 := by
      simpa [Char.isDigit, UInt32.le_iff_toNat_le] using hdigit
    simp only [isBlank, blankRanges, List.any_cons, List.any_nil, Bool.or_false,
      Bool.or_eq_false_iff, Bool.and_eq_false_iff, decide_eq_false_iff_not]
    omega

theorem spells_decimalInt (h : IsSignedWord i) : Spells (decimalInt i).toList i :=
  (readSigned_eq_ok.mp (readSigned_decimalInt h.1 h.2)).1

end Spells

end Text

namespace Address

variable {part : List Char} {value : Int} {text : String} {address : Address}

/-! ## Four integers as an address -/

/-- All four components are signed words, whether they make an address or not. -/
def IsSigned (address : Address) : Prop :=
  IsSignedWord address.graph ∧ IsSignedWord address.state ∧ IsSignedWord address.node ∧
    IsSignedWord address.edge

instance (address : Address) : Decidable address.IsSigned :=
  inferInstanceAs (Decidable (_ ∧ _))

/-- Which components may be set together. -/
structure Shaped (address : Address) : Prop where
  above : -1 ≤ address.graph ∧ -1 ≤ address.state ∧ -1 ≤ address.node ∧ -1 ≤ address.edge
  single : address.node = -1 ∨ address.edge = -1
  placed : address.node ≠ -1 → address.state ≠ -1
  rooted : address.graph = -1 → address.state = -1 ∧ address.node = -1 ∧ address.edge = -1

/-- The shape check passes exactly the addresses of the documented shape. -/
theorem fault?_eq_none : address.fault? = Option.none ↔ address.Shaped := by
  have hnone : address = none ↔ address.graph = -1 ∧ address.state = -1 ∧ address.node = -1 ∧
      address.edge = -1 := by
    cases address
    simp [none]
  constructor
  · intro h
    unfold fault? at h
    repeat' split at h
    all_goals try cases h
    constructor <;> grind
  · rintro ⟨habove, hsingle, hplaced, hrooted⟩
    unfold fault?
    grind

/-! ## Parts of a text -/

/-- The part gives the integer, with blanks around it or not. -/
def IsPart (part : List Char) (value : Int) : Prop :=
  ∃ before core after, part = before ++ core ++ after ∧ (∀ c ∈ before, Text.isBlank c = true) ∧
    (∀ c ∈ after, Text.isBlank c = true) ∧ Text.Spells core value

/-- A component is read exactly where the grammar has one that fits a signed word. -/
theorem component_eq_ok : component part = .ok value ↔ IsPart part value ∧ IsSignedWord value := by
  have hread : component part = .ok value ↔ Text.readSigned (Text.trim part) = .ok value := by
    rw [component]
    cases Text.readSigned (Text.trim part) <;> simp
  rw [hread, Text.readSigned_eq_ok]
  refine and_congr_left fun _ => ⟨fun hspells => ?_, ?_⟩
  · obtain ⟨before, after, hpart, hbefore, hafter⟩ := Text.exists_trim part
    exact ⟨before, _, after, hpart, hbefore, hafter, hspells⟩
  · rintro ⟨before, core, after, rfl, hbefore, hafter, hspells⟩
    rwa [Text.trim_append hbefore (fun c hc => hspells.isBlank_eq_false hc) hafter hspells.ne_nil]

theorem isPart_decimalInt (h : IsSignedWord value) : IsPart (Text.decimalInt value).toList value :=
  ⟨[], _, [], by simp, by simp, by simp, Text.spells_decimalInt h⟩

theorem IsPart.slash_notMem (h : IsPart part value) : '/' ∉ part := by
  obtain ⟨before, core, after, rfl, hbefore, hafter, hspells⟩ := h
  intro hslash
  rcases List.mem_append.mp hslash with hslash | hslash
  · rcases List.mem_append.mp hslash with hslash | hslash
    · exact absurd (hbefore _ hslash) (by decide)
    · exact absurd (hspells.mem hslash) (by decide)
  · exact absurd (hafter _ hslash) (by decide)

/-! ## Texts of addresses -/

/-- The text gives the four components, with a slash between one and the next. -/
def Spells (text : String) (address : Address) : Prop :=
  ∃ graph state node edge,
    text.toList = graph ++ '/' :: (state ++ '/' :: (node ++ '/' :: edge)) ∧
      IsPart graph address.graph ∧ IsPart state address.state ∧ IsPart node address.node ∧
        IsPart edge address.edge

/-- A text that spells an address has three slashes. -/
theorem Spells.count_slash (h : Spells text address) : text.toList.count '/' = 3 := by
  obtain ⟨graph, state, node, edge, htext, hgraph, hstate, hnode, hedge⟩ := h
  simp [htext, List.count_append, List.count_eq_zero.mpr hgraph.slash_notMem,
    List.count_eq_zero.mpr hstate.slash_notMem, List.count_eq_zero.mpr hnode.slash_notMem,
    List.count_eq_zero.mpr hedge.slash_notMem]

/-- Four components with values in range, in a documented shape, make an address, and nothing else
does. -/
theorem ofParts_eq_ok_iff {parts : List (List Char)} : ofParts parts = .ok address ↔
    (∃ graph state node edge, parts = [graph, state, node, edge] ∧ IsPart graph address.graph ∧
      IsPart state address.state ∧ IsPart node address.node ∧ IsPart edge address.edge) ∧
      address.IsSigned ∧ address.Shaped := by
  constructor
  · intro h
    unfold ofParts at h
    split at h
    next graph state node edge =>
      obtain ⟨_, hgraph, h⟩ := bind_eq_ok.mp h
      obtain ⟨_, hstate, h⟩ := bind_eq_ok.mp h
      obtain ⟨_, hnode, h⟩ := bind_eq_ok.mp h
      obtain ⟨_, hedge, h⟩ := bind_eq_ok.mp h
      obtain ⟨hgraph, hgraph'⟩ := component_eq_ok.mp hgraph
      obtain ⟨hstate, hstate'⟩ := component_eq_ok.mp hstate
      obtain ⟨hnode, hnode'⟩ := component_eq_ok.mp hnode
      obtain ⟨hedge, hedge'⟩ := component_eq_ok.mp hedge
      split at h
      next => cases h
      next hfault =>
        cases h
        exact ⟨⟨graph, state, node, edge, rfl, hgraph, hstate, hnode, hedge⟩,
          ⟨hgraph', hstate', hnode', hedge'⟩, fault?_eq_none.mp hfault⟩
    next => cases h
  · rintro ⟨⟨graph, state, node, edge, rfl, hgraph, hstate, hnode, hedge⟩,
      ⟨hgraph', hstate', hnode', hedge'⟩, hshaped⟩
    rw [ofParts, component_eq_ok.mpr ⟨hgraph, hgraph'⟩, component_eq_ok.mpr ⟨hstate, hstate'⟩,
      component_eq_ok.mpr ⟨hnode, hnode'⟩, component_eq_ok.mpr ⟨hedge, hedge'⟩]
    simp only [ok_bind, fault?_eq_none.mpr hshaped]
    rfl

/-- A text is read as an address if it spells four signed words in shape. -/
theorem ofText_eq_ok_iff : ofText text = .ok address ↔
    Spells text address ∧ address.IsSigned ∧ address.Shaped := by
  rw [ofText, mapError_eq_ok, ofParts_eq_ok_iff]
  refine and_congr_left fun _ => ⟨?_, ?_⟩
  · rintro ⟨graph, state, node, edge, hsplit, hparts⟩
    have htext : ['/'].intercalate (text.toList.splitOn '/') = text.toList :=
      List.intercalate_splitOn '/'
    rw [hsplit] at htext
    refine ⟨graph, state, node, edge, ?_, hparts⟩
    simpa [List.intercalate] using htext.symm
  · rintro ⟨graph, state, node, edge, htext, hgraph, hstate, hnode, hedge⟩
    refine ⟨graph, state, node, edge, ?_, hgraph, hstate, hnode, hedge⟩
    rw [htext, List.splitOn_append_cons_self_of_not_mem hgraph.slash_notMem,
      List.splitOn_append_cons_self_of_not_mem hstate.slash_notMem,
      List.splitOn_append_cons_self_of_not_mem hnode.slash_notMem,
      List.splitOn_eq_singleton hedge.slash_notMem]

/-- The fault is reported together with the whole text. -/
theorem ofText_eq_error {error : GraphError} (h : ofText text = .error error) :
    ∃ fault, error = .malformedAddress text fault := by
  rw [ofText] at h
  cases hparts : ofParts (text.toList.splitOn '/') with
  | error fault =>
      rw [hparts] at h
      cases h
      exact ⟨fault, rfl⟩
  | ok address =>
      rw [hparts] at h
      cases h

end Address

end DataflowEditor
