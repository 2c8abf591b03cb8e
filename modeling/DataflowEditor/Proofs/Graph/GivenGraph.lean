import DataflowEditor.Proofs.Graph.Selecting

/-! # The graph that a descriptor gives

The graph of a descriptor is read in two ways. A state or node gives an integer under one of two
keys, and where the first holds none the second is looked at. A descriptor of another kind gives a
number under the first key that it has. The two agree exactly where the first key is absent or holds
an integer with a sign; elsewhere a descriptor of another kind counts for no graph, or for one that
no integer with a sign can number.
-/

namespace DataflowEditor

namespace Selection

variable {arena : Arena} {fields : Fields} {id : Json} {graph place : Nat}

/-- The fields as those of a state. -/
def asState (fields : Fields) (id : Json) : Json :=
  .obj ((fields.put "type" (.str "state")).put "id" id)

/-- Read as a state, a descriptor keeps every member but its type and its id. -/
theorem member?_asState {key : String} (htype : key ≠ "type") (hid : key ≠ "id") :
    (asState fields id).member? key = (Json.obj fields).member? key := by
  change Fields.value? _ _ = Fields.value? _ _
  rw [Fields.value?_put_of_ne _ _ _ _ hid, Fields.value?_put_of_ne _ _ _ _ htype]

theorem graphNumber?_asState (fields : Fields) (id : Json) :
    Element.graphNumber? (asState fields id) = Element.graphNumber? (.obj fields) := by
  simp only [Element.graphNumber?, Element.integer?]
  rw [member?_asState (by decide) (by decide), member?_asState (by decide) (by decide)]

theorem graphNumber?_of_asState
    (h : Element.ofDescriptor (asState fields id) = .ok (.state graph place)) :
    Element.graphNumber? (.obj fields) = some (graph : Int) := by
  rw [← graphNumber?_asState fields id]
  cases Element.ofDescriptor_eq_ok.mp h with
  | state hgraph => exact hgraph
  | drawn hgraph => exact hgraph

/-- The first key is absent, or holds an integer that a state could give there. -/
def GivesInteger (fields : Fields) : Prop :=
  ∀ value, fields.value? "sdfg_id" = some value → ∃ i, value.asInt? = some i

/-- A descriptor that gives an integer touches the graph it names. -/
theorem touchedGraph?_of_givesInteger (hgives : GivesInteger fields)
    (hgraph : Element.graphNumber? (.obj fields) = some (graph : Int)) :
    touchedGraph? (.obj fields) = some graph := by
  have hnumber : ∀ {value : Json}, value.asInt? = some (graph : Int) →
      value.asNat? = some graph := by
    intro value hvalue
    obtain ⟨rfl, _, hhigh⟩ := Json.asInt?_eq_some.mp hvalue
    refine Json.asNat?_eq_some.mpr ⟨rfl, ?_⟩
    simp only [halfWordCount, wordCount] at hhigh ⊢
    omega
  change ((fields.value? "sdfg_id").bind Json.asInt?).or
    ((fields.value? "sdfgId").bind Json.asInt?) = some (graph : Int) at hgraph
  change ((fields.value? "sdfg_id").or (fields.value? "sdfgId")).bind Json.asNat? = some graph
  cases hfirst : fields.value? "sdfg_id" with
  | none =>
      rw [hfirst] at hgraph
      obtain ⟨value, hvalue, hinteger⟩ := Option.bind_eq_some_iff.mp hgraph
      rw [hvalue]
      exact hnumber hinteger
  | some value =>
      obtain ⟨i, hinteger⟩ := hgives value hfirst
      rw [hfirst, Option.bind_some, hinteger, Option.some_or] at hgraph
      exact hnumber (hinteger.trans hgraph)

/-- What is counted in its place is beyond every integer with a sign. -/
theorem le_of_not_givesInteger (hgives : ¬ GivesInteger fields)
    (hgraph : touchedGraph? (.obj fields) = some graph) : halfWordCount ≤ graph := by
  obtain ⟨value, hfirst, hnone⟩ : ∃ value, fields.value? "sdfg_id" = some value ∧
      ∀ i, value.asInt? ≠ some i := by
    simpa [GivesInteger] using hgives
  change ((fields.value? "sdfg_id").or (fields.value? "sdfgId")).bind Json.asNat? =
    some graph at hgraph
  rw [hfirst, Option.some_or, Option.bind_some] at hgraph
  obtain ⟨rfl, _⟩ := Json.asNat?_eq_some.mp hgraph
  by_contra hlt
  have hword : IsSignedWord graph :=
    isSignedWord_of_le (by omega) (Int.ofNat_lt.mpr (Nat.lt_of_not_le hlt))
  exact hnone graph (Json.asInt?_eq_some.mpr ⟨rfl, hword⟩)

/-! ## Counting -/

/-- A descriptor of another kind needs no arena. -/
theorem ofDescriptors_other (arena : Arena) {descriptor : Json}
    (hkind : ¬ IsOfElement descriptor) : ofDescriptors arena [descriptor] =
      .ok ⟨(touchedGraph? descriptor).toList, none⟩ := by
  have hnames : namesElement descriptor = false := by
    simpa using mt namesElement_iff.mp hkind
  simp only [ofDescriptors, List.mapM_cons, List.mapM_nil, contribution, hnames]
  cases touchedGraph? descriptor <;> rfl

/-- Read as a state, it touches that state's graph alone. -/
theorem touches_asState
    (h : Element.ofDescriptor (asState fields id) = .ok (.state graph place)) {other : Nat} :
    Touches (asState fields id) other ↔ other = graph := by
  have hdescribed := Element.ofDescriptor_eq_ok.mp h
  constructor
  · intro htouches
    cases htouches with
    | element hother =>
        have hread := Element.ofDescriptor_eq_ok.mpr hother
        rw [h] at hread
        cases hread
        rfl
    | given hnot => exact absurd (isOfElement_of_describedBy hdescribed) hnot
  · rintro rfl
    exact .element hdescribed

/-- The graphs of a plan do not tell apart two descriptors that touch the same graph. -/
theorem planFor_graphs_congr {first second : Json} (before after : List Json)
    (hsame : ∀ id, Touches first id ↔ Touches second id) :
    (planFor (before ++ first :: after)).graphs = (planFor (before ++ second :: after)).graphs := by
  refine eq_of_pairwise_lt (pairwise_ascending _) (pairwise_ascending _) fun id => ?_
  simp only [mem_planFor_graphs, List.mem_append, List.mem_cons, or_and_right, exists_or,
    exists_eq_left, hsame]

/-- The descriptor counts for the graph that a state with its fields lies in. -/
structure CountsAlike (fields : Fields) (id : Json) (graph : Nat) : Prop where
  alone : ∀ arena, ofDescriptors arena [.obj fields] = .ok ⟨[graph], none⟩
  /-- Put in the place of that state, it leaves the graphs that are touched as they are. -/
  among : ∀ (arena : Arena) (before after : List Json) (selection : Selection),
    arena.WellFormed → ofDescriptors arena (before ++ asState fields id :: after) = .ok selection →
      ∃ other, ofDescriptors arena (before ++ .obj fields :: after) = .ok other ∧
        other.graphs = selection.graphs

/-- A descriptor that gives an integer counts for the same graphs, whichever way it is read. -/
theorem countsAlike_of_givesInteger (hkind : ¬ IsOfElement (.obj fields))
    (hread : Element.ofDescriptor (asState fields id) = .ok (.state graph place))
    (hgives : GivesInteger fields) : CountsAlike fields id graph where
  alone arena := by
    rw [ofDescriptors_other arena hkind,
      touchedGraph?_of_givesInteger hgives (graphNumber?_of_asState hread)]
    rfl
  among arena before after selection h hplan := by
    obtain ⟨hadmits, rfl⟩ := (ofDescriptors_eq_ok h).mp hplan
    refine ⟨_, (ofDescriptors_eq_ok h).mpr ⟨fun descriptor hmem => ?_, rfl⟩,
      planFor_graphs_congr before after fun other => ?_⟩
    · rcases List.mem_append.mp hmem with hbefore | hafter
      · exact hadmits descriptor (List.mem_append_left _ hbefore)
      · rcases List.mem_cons.mp hafter with rfl | hafter
        · exact fun hof => absurd hof hkind
        · exact hadmits descriptor (List.mem_append_right _ (List.mem_cons_of_mem _ hafter))
    · rw [touches_of_not_isOfElement hkind, touches_asState hread,
        touchedGraph?_of_givesInteger hgives (graphNumber?_of_asState hread), Option.some_inj,
        eq_comm]

/-- A descriptor of another kind counts for the graph that a state with its fields lies in exactly
if the first key is absent or holds an integer. Else it counts for nothing, or for a number that is
too large for a state to give. -/
theorem countsAlike_iff (hkind : ¬ IsOfElement (.obj fields))
    (hread : Element.ofDescriptor (asState fields id) = .ok (.state graph place)) :
    (CountsAlike fields id graph ↔ GivesInteger fields) ∧
      (¬ GivesInteger fields → ∀ arena, ∃ counted : Option Nat,
        ofDescriptors arena [.obj fields] = .ok ⟨counted.toList, none⟩ ∧
          ∀ other ∈ counted, halfWordCount ≤ other) := by
  have helse : ¬ GivesInteger fields → ∀ arena, ∃ counted : Option Nat,
      ofDescriptors arena [.obj fields] = .ok ⟨counted.toList, none⟩ ∧
        ∀ other ∈ counted, halfWordCount ≤ other := fun hgives arena =>
    ⟨_, ofDescriptors_other arena hkind, fun _ => le_of_not_givesInteger hgives⟩
  refine ⟨⟨fun halike => ?_, countsAlike_of_givesInteger hkind hread⟩, helse⟩
  by_contra hgives
  obtain ⟨counted, hcounted, hlarge⟩ := helse hgives default
  rw [halike.alone default] at hcounted
  have hsome : counted = some graph := by
    cases counted <;> simp_all
  have hfits := (Element.ofDescriptor_eq_ok.mp hread).fitsWords.1
  exact absurd (hlarge graph hsome) (Nat.not_le.mpr hfits)

/-- An edge of a nested graph, with the number of that graph under the second key. -/
def nestedEdge : Fields :=
  [("type", .str "edge"), ("sdfgId", .nat 1)]

theorem nestedEdge_countsAlike : ¬ IsOfElement (.obj nestedEdge) ∧
    Element.ofDescriptor (asState nestedEdge (.nat 0)) = .ok (.state 1 0) ∧
      CountsAlike nestedEdge (.nat 0) 1 := by
  have hkind : ¬ IsOfElement (.obj nestedEdge) := by decide
  have hread : Element.ofDescriptor (asState nestedEdge (.nat 0)) = .ok (.state 1 0) := by decide
  exact ⟨hkind, hread, (countsAlike_iff hkind hread).1.mpr fun value hvalue => by
    simp [nestedEdge, Fields.value?] at hvalue⟩

/-- The same edge, with the first key there but empty. -/
def nulledEdge : Fields :=
  ("sdfg_id", .null) :: nestedEdge

/-- Selected together with a state of the root, the edge of the nested graph goes unnoticed, though
a state with its fields does not. -/
theorem nulledEdge_not_countsAlike : ¬ IsOfElement (.obj nulledEdge) ∧
    Element.ofDescriptor (asState nulledEdge (.nat 0)) = .ok (.state 1 0) ∧
      ¬ CountsAlike nulledEdge (.nat 0) 1 ∧
        ofDescriptors Arena.nestedArena [asState [("sdfg_id", .nat 0)] (.nat 0),
          asState nulledEdge (.nat 0)] = .ok ⟨[0, 1], none⟩ ∧
        ofDescriptors Arena.nestedArena [asState [("sdfg_id", .nat 0)] (.nat 0),
          .obj nulledEdge] = .ok ⟨[0], some (.states 0 [0])⟩ := by
  refine ⟨by decide, by decide, fun halike => ?_, by decide, by decide⟩
  exact absurd (halike.alone Arena.nestedArena) (by decide)

end Selection

end DataflowEditor
