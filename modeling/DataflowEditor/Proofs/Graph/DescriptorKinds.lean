import DataflowEditor.Proofs.Graph.Descriptors

/-! # Descriptors taken at their word

A node that is described without a state is itself a state, drawn as a node. Its descriptor has no
state, has null in its place, or a negative integer. Reading cannot tell this from a state that is
given as something other than an integer: a node that is described so comes out as a state, in place
of a failure. All other descriptors are read as what they name.
-/

namespace DataflowEditor

namespace Element

variable {descriptor : Json} {element : Element}

/-! ## What stands for a state -/

/-- The descriptor lies in no state. -/
inductive LeavesStateOut (descriptor : Json) : Prop
  | absent : descriptor.member? "state_id" = none → LeavesStateOut descriptor
  | null : descriptor.member? "state_id" = some .null → LeavesStateOut descriptor
  | negative {place : Int} : place < 0 → integer? descriptor "state_id" = some place →
      LeavesStateOut descriptor

/-- Something stands for a state, but it is no integer that a word holds. -/
def HasStrayState (descriptor : Json) : Prop :=
  ∃ member, descriptor.member? "state_id" = some member ∧ member ≠ .null ∧ member.asInt? = none

theorem LeavesStateOut.not_stray (h : LeavesStateOut descriptor) : ¬ HasStrayState descriptor := by
  rintro ⟨member, hmember, hset, hstray⟩
  cases h with
  | absent hnone => simp [hmember] at hnone
  | null hnull => exact hset (Option.some.inj (hmember.symm.trans hnull))
  | negative _ hplace => simp [integer?, hmember, hstray] at hplace

/-- Both look the same to a reader of integers. -/
theorem stateUnset_iff : (∀ place : Nat, integer? descriptor "state_id" ≠ some (place : Int)) ↔
    LeavesStateOut descriptor ∨ HasStrayState descriptor := by
  constructor
  · intro hunset
    cases hmember : descriptor.member? "state_id" with
    | none => exact .inl (.absent hmember)
    | some member =>
        by_cases hnull : member = .null
        · exact .inl (.null (hnull ▸ hmember))
        cases hplace : member.asInt? with
        | none => exact .inr ⟨member, hmember, hnull, hplace⟩
        | some place =>
            have hinteger : integer? descriptor "state_id" = some place := by
              rw [integer?, hmember, Option.bind_some, hplace]
            -- A state that is given as an integer and is not negative would be one.
            refine .inl (.negative (Int.lt_of_not_ge fun hlow => ?_) hinteger)
            exact hunset place.toNat (by rw [hinteger, Int.toNat_of_nonneg hlow])
  · rintro (hout | ⟨member, hmember, _, hstray⟩) place hplace
    · cases hout with
      | absent hnone => simp [integer?, hnone] at hplace
      | null hnull => simp [integer?, hnull, Json.asInt?] at hplace
      | negative hlow hnegative =>
          have heq := Option.some.inj (hnegative.symm.trans hplace)
          omega
    · simp [integer?, hmember, hstray] at hplace

/-! ## What a descriptor names -/

/-- The element that a descriptor names. A descriptor with a stray state names nothing. -/
inductive NamedBy (descriptor : Json) : Element → Prop
  | state {graph id : Nat} : graphNumber? descriptor = some (graph : Int) →
      integer? descriptor "id" = some (id : Int) →
      descriptor.member? "type" = some (.str "state") → NamedBy descriptor (.state graph id)
  | node {graph place id : Nat} : graphNumber? descriptor = some (graph : Int) →
      integer? descriptor "id" = some (id : Int) →
      descriptor.member? "type" = some (.str "node") →
      integer? descriptor "state_id" = some (place : Int) →
      NamedBy descriptor (.node graph place id)
  | drawn {graph id : Nat} : graphNumber? descriptor = some (graph : Int) →
      integer? descriptor "id" = some (id : Int) →
      descriptor.member? "type" = some (.str "node") → LeavesStateOut descriptor →
      NamedBy descriptor (.state graph id)

/-- A node with a stray state, whose other numbers are as they should be. -/
structure MisreadAs (descriptor : Json) (graph id : Nat) : Prop where
  graph : graphNumber? descriptor = some (graph : Int)
  id : integer? descriptor "id" = some (id : Int)
  node : descriptor.member? "type" = some (.str "node")
  stray : HasStrayState descriptor

/-- An element that a descriptor names is the one it is read as. -/
theorem NamedBy.describedBy (h : element.NamedBy descriptor) : element.DescribedBy descriptor := by
  cases h with
  | state hgraph hid htype => exact .state hgraph hid htype
  | node hgraph hid htype hplace => exact .node hgraph hid htype hplace
  | drawn hgraph hid htype hout => exact .drawn hgraph hid htype (stateUnset_iff.mpr (.inl hout))

/-- A descriptor is read as the element it names, or else it is misread as a state. -/
theorem DescribedBy.named_or_misread (h : element.DescribedBy descriptor) :
    element.NamedBy descriptor ∨
      ∃ graph id, element = .state graph id ∧ MisreadAs descriptor graph id := by
  cases h with
  | state hgraph hid htype => exact .inl (.state hgraph hid htype)
  | node hgraph hid htype hplace => exact .inl (.node hgraph hid htype hplace)
  | drawn hgraph hid htype hunset =>
      rcases stateUnset_iff.mp hunset with hout | hstray
      · exact .inl (.drawn hgraph hid htype hout)
      · exact .inr ⟨_, _, rfl, hgraph, hid, htype, hstray⟩

theorem MisreadAs.describedBy {graph id : Nat} (h : MisreadAs descriptor graph id) :
    (Element.state graph id).DescribedBy descriptor :=
  .drawn h.graph h.id h.node (stateUnset_iff.mpr (.inr h.stray))

theorem MisreadAs.not_namedBy {graph id : Nat} (h : MisreadAs descriptor graph id) :
    ¬ element.NamedBy descriptor := by
  intro hnamed
  cases hnamed with
  | state _ _ htype => simp [h.node] at htype
  | node _ _ _ hplace => exact stateUnset_iff.mpr (.inr h.stray) _ hplace
  | drawn _ _ _ hout => exact hout.not_stray h.stray

/-! ## Reading is exact but for stray states -/

/-- The result is no failure but one that blames the caller. -/
def BlamesCaller {α : Type} (result : Except GraphError α) : Prop :=
  ∀ error, result = .error error → error.isUnanswerable = true

theorem BlamesCaller.bind {α β : Type} {first : Except GraphError α}
    {next : α → Except GraphError β} (hfirst : BlamesCaller first)
    (hnext : ∀ value, BlamesCaller (next value)) : BlamesCaller (first >>= next) := by
  cases first with
  | error error => exact fun other h => hfirst other (by cases h; rfl)
  | ok value => exact hnext value

theorem blamesCaller_required (reason : AddressFault) (value : Option Int) :
    BlamesCaller (required descriptor reason value) := by
  rintro error h
  cases value <;> cases h
  rfl

theorem blamesCaller_descriptorIndex (component : String) (value : Int) :
    BlamesCaller (descriptorIndex descriptor component value) := by
  intro error h
  unfold descriptorIndex at h
  split at h <;> cases h
  rfl

/-- A descriptor that cannot be read is the caller's fault. -/
theorem blamesCaller_ofDescriptor (descriptor : Json) :
    BlamesCaller (ofDescriptor descriptor) := by
  have hindexed : ∀ {component : String} {value : Int} (element : Nat → Element),
      BlamesCaller (descriptorIndex descriptor component value >>= fun place =>
        pure (element place)) := fun element =>
    (blamesCaller_descriptorIndex _ _).bind fun _ => nofun
  unfold ofDescriptor
  refine (blamesCaller_required _ _).bind fun graph => ?_
  refine (blamesCaller_required _ _).bind fun id => ?_
  refine (blamesCaller_descriptorIndex _ _).bind fun graph => ?_
  split
  · exact hindexed _
  · split <;> exact hindexed _
  · rintro error ⟨⟩
    rfl

/-- What comes of a descriptor. -/
structure ReadsAsNamed (descriptor : Json) : Prop where
  node : ∀ graph place id, ofDescriptor descriptor = .ok (.node graph place id) ↔
    NamedBy descriptor (.node graph place id)
  state : ∀ graph id, ofDescriptor descriptor = .ok (.state graph id) ↔
    NamedBy descriptor (.state graph id) ∨ MisreadAs descriptor graph id
  /-- Graphs and edges are never described. -/
  kinds : ∀ element, ofDescriptor descriptor = .ok element →
    (∃ graph place, element = .state graph place) ∨
      ∃ graph place id, element = .node graph place id
  rejected : BlamesCaller (ofDescriptor descriptor)
  faithful : (∀ element, ofDescriptor descriptor = .ok element ↔ NamedBy descriptor element) ↔
    ∀ graph id, ¬ MisreadAs descriptor graph id

/-- Every descriptor is read as the element it names, but for those with a stray state. -/
theorem readsAsNamed (descriptor : Json) : ReadsAsNamed descriptor := by
  have hstate : ∀ graph id, ofDescriptor descriptor = .ok (.state graph id) ↔
      NamedBy descriptor (.state graph id) ∨ MisreadAs descriptor graph id := by
    intro graph id
    rw [ofDescriptor_eq_ok]
    constructor
    · intro h
      rcases h.named_or_misread with hnamed | ⟨_, _, heq, hmisread⟩
      · exact .inl hnamed
      · cases heq
        exact .inr hmisread
    · rintro (hnamed | hmisread)
      · exact hnamed.describedBy
      · exact hmisread.describedBy
  refine ⟨fun graph place id => ?_, hstate, fun element h => ?_,
    blamesCaller_ofDescriptor descriptor, fun hfaithful graph id hmisread => ?_,
    fun hnever element => ?_⟩
  · rw [ofDescriptor_eq_ok]
    refine ⟨fun h => h.named_or_misread.resolve_right ?_, NamedBy.describedBy⟩
    rintro ⟨_, _, heq, _⟩
    cases heq
  · exact (ofDescriptor_eq_ok.mp h).state_or_node
  · exact hmisread.not_namedBy ((hfaithful _).mp ((hstate graph id).mpr (.inr hmisread)))
  · rw [ofDescriptor_eq_ok]
    refine ⟨fun h => h.named_or_misread.resolve_right ?_, NamedBy.describedBy⟩
    rintro ⟨graph, id, _, hmisread⟩
    exact hnever graph id hmisread

/-- A node of the first state, which is given as a text. -/
def textStateDescriptor : Json :=
  .obj [("type", .str "node"), ("sdfg_id", .nat 0), ("state_id", .str "0"), ("id", .nat 1)]

/-- It is read as the second state. -/
theorem textStateDescriptor_misread :
    ofDescriptor textStateDescriptor = .ok (.state 0 1) ∧
      ∀ element, ¬ NamedBy textStateDescriptor element := by
  have hmisread : MisreadAs textStateDescriptor 0 1 :=
    ⟨by decide, by decide, by decide, .str "0", by decide, by decide, rfl⟩
  exact ⟨by decide, fun element => hmisread.not_namedBy⟩

end Element

end DataflowEditor
