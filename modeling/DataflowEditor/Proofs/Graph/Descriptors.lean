import DataflowEditor.Graph.Descriptor
import DataflowEditor.Proofs.Graph.Addressing
import DataflowEditor.Proofs.Json.Fields

/-! # What descriptors describe

A descriptor of a state or node gives the number of a graph under one of two keys, the second of
which is looked at where the first holds no integer. What it describes fits signed words, as the
numbers of documents do, and is a state, or a node if a state is given for it.
-/

namespace DataflowEditor

namespace Element

variable {descriptor : Json} {element : Element}

/-- An integer read from a descriptor is a signed word. -/
theorem integer?_isSignedWord {key : String} {value : Int}
    (h : integer? descriptor key = some value) : IsSignedWord value := by
  obtain ⟨member, _, hvalue⟩ := Option.bind_eq_some_iff.mp h
  exact (Json.asInt?_eq_some.mp hvalue).2

theorem required_eq_ok {reason : AddressFault} {value : Option Int} {found : Int} :
    required descriptor reason value = .ok found ↔ value = some found := by
  cases value <;> simp [required]

theorem descriptorIndex_eq_ok {component : String} {value : Int} {index : Nat} :
    descriptorIndex descriptor component value = .ok index ↔ value = index := by
  unfold descriptorIndex
  split
  next hlow =>
    rw [Except.ok.injEq]
    omega
  next hlow =>
    simp only [reduceCtorEq, false_iff]
    omega

/-- The number of the graph that the descriptor of a state or node gives. -/
def graphNumber? (descriptor : Json) : Option Int :=
  (integer? descriptor "sdfg_id").or (integer? descriptor "sdfgId")

/-- The element that a descriptor describes, in a graph or not. -/
inductive DescribedBy (descriptor : Json) : Element → Prop
  | state {graph id : Nat} : graphNumber? descriptor = some (graph : Int) →
      integer? descriptor "id" = some (id : Int) →
      descriptor.member? "type" = some (.str "state") → DescribedBy descriptor (.state graph id)
  | node {graph place id : Nat} : graphNumber? descriptor = some (graph : Int) →
      integer? descriptor "id" = some (id : Int) →
      descriptor.member? "type" = some (.str "node") →
      integer? descriptor "state_id" = some (place : Int) →
      DescribedBy descriptor (.node graph place id)
  /-- A state that is drawn as a node lies in no state. -/
  | drawn {graph id : Nat} : graphNumber? descriptor = some (graph : Int) →
      integer? descriptor "id" = some (id : Int) →
      descriptor.member? "type" = some (.str "node") →
      (∀ place : Nat, integer? descriptor "state_id" ≠ some (place : Int)) →
      DescribedBy descriptor (.state graph id)

/-- What is read without looking at any graph is what is described. -/
theorem ofDescriptor_eq_ok :
    ofDescriptor descriptor = .ok element ↔ element.DescribedBy descriptor := by
  constructor
  · intro h
    unfold ofDescriptor at h
    obtain ⟨graph, hgraph, h⟩ := bind_eq_ok.mp h
    obtain ⟨id, hid, h⟩ := bind_eq_ok.mp h
    dsimp only at h
    -- The type is looked at last, after the numbers that every descriptor has to give.
    obtain ⟨index, hindex, hkind⟩ := bind_eq_ok.mp h
    obtain rfl := descriptorIndex_eq_ok.mp hindex
    have hgraph := required_eq_ok.mp hgraph
    have hid := required_eq_ok.mp hid
    split at hkind
    next htype =>
      obtain ⟨place, hplace, hread⟩ := bind_eq_ok.mp hkind
      obtain rfl := descriptorIndex_eq_ok.mp hplace
      cases hread
      exact .state hgraph hid (Fields.bind_asString?_eq_some.mp htype)
    next htype =>
      split at hkind
      next hset =>
        obtain ⟨place, hplace, hread⟩ := bind_eq_ok.mp hkind
        obtain rfl := descriptorIndex_eq_ok.mp hplace
        cases hread
        refine .node hgraph hid (Fields.bind_asString?_eq_some.mp htype) ?_
        cases hstate : integer? descriptor "state_id" with
        | none => simp [hstate] at hset
        | some place =>
            simp only [hstate, Option.getD_some] at hset ⊢
            rw [Int.toNat_of_nonneg hset]
      next hunset =>
        obtain ⟨place, hplace, hread⟩ := bind_eq_ok.mp hkind
        obtain rfl := descriptorIndex_eq_ok.mp hplace
        cases hread
        refine .drawn hgraph hid (Fields.bind_asString?_eq_some.mp htype) fun place hplace =>
          hunset ?_
        rw [hplace, Option.getD_some]
        omega
    next => cases hkind
  · intro h
    have hindex : ∀ {component : String} {index : Nat},
        descriptorIndex descriptor component index = .ok index := descriptorIndex_eq_ok.mpr rfl
    have hgraph : ∀ {graph : Nat}, graphNumber? descriptor = some (graph : Int) →
        required descriptor .missingGraphId
          ((integer? descriptor "sdfg_id").or (integer? descriptor "sdfgId")) =
            .ok (graph : Int) := required_eq_ok.mpr
    cases h with
    | state hnumber hid htype =>
        rw [ofDescriptor, htype, hgraph hnumber, required_eq_ok.mpr hid]
        simp [hindex, Json.asString?, pure, Except.pure]
    | node hnumber hid htype hplace =>
        rw [ofDescriptor, htype, hgraph hnumber, required_eq_ok.mpr hid, hplace]
        simp [hindex, Json.asString?, pure, Except.pure]
    | drawn hnumber hid htype hplace =>
        have hunset : ¬ 0 ≤ (integer? descriptor "state_id").getD (-1) := by
          intro hset
          cases hstate : integer? descriptor "state_id" with
          | none => simp [hstate] at hset
          | some place =>
              rw [hstate, Option.getD_some] at hset
              exact hplace place.toNat (by rw [hstate, Int.toNat_of_nonneg hset])
        rw [ofDescriptor, htype, hgraph hnumber, required_eq_ok.mpr hid]
        simp [hindex, hunset, Json.asString?, pure, Except.pure]

theorem DescribedBy.fitsWords (h : element.DescribedBy descriptor) : element.FitsWords := by
  have hword : ∀ {value : Option Int} {n : Nat}, (∀ i, value = some i → IsSignedWord i) →
      value = some (n : Int) → n < halfWordCount := fun hvalue hn => Int.ofNat_lt.mp (hvalue _ hn).2
  have hnumber : ∀ i, graphNumber? descriptor = some i → IsSignedWord i := by
    intro i hi
    rcases Option.or_eq_some_iff.mp hi with hi | ⟨_, hi⟩ <;> exact integer?_isSignedWord hi
  have hinteger : ∀ {key}, ∀ i, integer? descriptor key = some i → IsSignedWord i :=
    fun _ => integer?_isSignedWord
  cases h with
  | state hgraph hid => exact ⟨hword hnumber hgraph, hword hinteger hid⟩
  | node hgraph hid _ hplace =>
      exact ⟨hword hnumber hgraph, hword hinteger hplace, hword hinteger hid⟩
  | drawn hgraph hid => exact ⟨hword hnumber hgraph, hword hinteger hid⟩

def isState : Element → Bool
  | .state _ _ => true
  | _ => false

theorem DescribedBy.state_or_node (h : element.DescribedBy descriptor) :
    (∃ id place, element = .state id place) ∨ ∃ id place index, element = .node id place index := by
  cases h with
  | node => exact .inr ⟨_, _, _, rfl⟩
  | _ => exact .inl ⟨_, _, rfl⟩

end Element

end DataflowEditor
