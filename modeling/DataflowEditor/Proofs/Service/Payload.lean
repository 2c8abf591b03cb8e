import DataflowEditor.Envelope
import DataflowEditor.Proofs.Graph.Rereading

/-! # Graphs that are sent back

The editor sends a graph that it was given with its next request. Such a graph is accepted if the
arena it was written from is well formed, types and ends of edges fit, and the root has no member
that would make an error envelope of it. Every graph that is accepted gives such an arena, and edits
keep to it as long as the nodes and edges that they add do.
-/

namespace DataflowEditor

/-! ## Payloads -/

/-- The document that a payload brings, itself or as a text. -/
def payloadDocument? : Json → Option Json
  | .str text => Json.ofText? text
  | document => some document

/-- A payload is read when it reports no error and decodes. -/
theorem readPayload_eq_ok {payload : Json} {arena : Arena} : readPayload payload = .ok arena ↔
    payload.member? "error" = none ∧ Arena.ofJson payload = .ok arena := by
  unfold readPayload
  cases payload.member? "error" with
  | some error => simp
  | none => simp [mapError_eq_ok]

theorem readPayloadOrText_eq_ok {payload : Json} {arena : Arena} :
    readPayloadOrText payload = .ok arena ↔
      ∃ document, payloadDocument? payload = some document ∧ readPayload document = .ok arena := by
  cases payload with
  | str text =>
      rw [readPayloadOrText, payloadDocument?]
      cases Json.ofText? text <;> simp
  | _ => simp [readPayloadOrText, payloadDocument?]

theorem readPayloadOrText_of_document {payload document : Json}
    (h : payloadDocument? payload = some document) :
    readPayloadOrText payload = readPayload document := by
  cases payload with
  | str text =>
      have htext : Json.ofText? text = some document := h
      rw [readPayloadOrText, htext]
  | _ =>
      cases h
      rfl

theorem readPayloadOrText_obj (fields : Fields) :
    readPayloadOrText (.obj fields) = readPayload (.obj fields) :=
  rfl

namespace Arena

variable {arena : Arena}

/-! ## Members of the root -/

/-- A member of the root, as the document of the arena begins with it. -/
def rootMember (arena : Arena) (key : String) : Option Json :=
  arena.graphs[0]?.bind fun graph => graph.fields.value? key

theorem rootMember_modifyGraph {id : Nat} {change : Subgraph → Subgraph} {key : String}
    (h : ∀ graph, (change graph).fields.value? key = graph.fields.value? key) :
    (arena.modifyGraph id change).rootMember key = arena.rootMember key := by
  rw [rootMember, modifyGraph_getElem?, rootMember]
  cases arena.graphs[0]? with
  | none => rfl
  | some graph =>
      rw [Option.map_some, Option.bind_some, Option.bind_some]
      split
      · exact h graph
      · rfl

/-- The root stays the root when graphs are renumbered. -/
theorem Reaches.rootMember_renumber {met : List Nat} (h : arena.Reaches met) (key : String) :
    arena.renumber.rootMember key = arena.rootMember key := by
  obtain ⟨rest, rfl⟩ := h.head
  cases hroot : arena.renumber.graphs[0]? with
  | none =>
      rw [List.getElem?_eq_none_iff, h.renumber_length] at hroot
      simp at hroot
  | some graph =>
      obtain ⟨id, original, owner, hid, horiginal, rfl⟩ := h.renumber_getElem? hroot
      obtain rfl : 0 = id := by simpa using hid
      rw [rootMember, hroot, rootMember, horiginal]
      rfl

theorem rootMember_append {block : List Subgraph} {state : State} {id place : Nat}
    (h : arena.state id place = .ok state) (key : String) :
    (Arena.mk (arena.graphs ++ block)).rootMember key = arena.rootMember key := by
  obtain ⟨graph, hgraph, _⟩ := state_eq_ok.mp h
  have hpos : 0 < arena.graphs.length :=
    Nat.lt_of_le_of_lt (Nat.zero_le id) (List.getElem?_eq_some_iff.mp hgraph).1
  rw [rootMember, List.getElem?_append_left hpos, rootMember]

/-- Edits set no member of the root but those that they follow or strip. -/
theorem WellFormed.rootMember_effect (h : arena.WellFormed) {edit : Edit} {result : Arena}
    {place : Option Nat} (heffect : arena.Effect edit result place) {key : String}
    (hstart : key ≠ "start_state") (hattributes : key ≠ "attributes") :
    result.rootMember key = arena.rootMember key := by
  have hmodify : ∀ (given : Arena) (id place : Nat) (change : State → State),
      (given.modifyState id place change).rootMember key = given.rootMember key :=
    fun given id place change => rootMember_modifyGraph fun graph => rfl
  cases heffect with
  | pushState _ => exact rootMember_modifyGraph fun graph => rfl
  | pushNode _ _ => exact hmodify _ _ _ _
  -- The renumbering keeps the root in its place, here and in the cases below.
  | pushNestedNode hstate hblock =>
      obtain ⟨met, _, hreach, _⟩ := h.reaches_pushNode hstate _ hblock
      rw [hreach.rootMember_renumber, hmodify, rootMember_append hstate]
  | connectNodes _ _ _ => exact hmodify _ _ _ _
  | connectStates _ _ _ => exact rootMember_modifyGraph fun graph => rfl
  | @eraseGraph _ owner _ _ _ =>
      obtain ⟨met, _, hreach⟩ := h.reaches_eraseNode owner
      rw [hreach.rootMember_renumber, hmodify]
  | @eraseState id place _ _ =>
      obtain ⟨met, _, hreach⟩ := h.reaches_eraseState id place
      rw [hreach.rootMember_renumber]
      exact rootMember_modifyGraph fun graph => Fields.value?_renameIndex_of_ne _ none hstart
  | @eraseNode location _ _ =>
      obtain ⟨met, _, hreach⟩ := h.reaches_eraseNode location
      rw [hreach.rootMember_renumber, hmodify]
  | eraseWithin _ _ => exact hmodify _ _ _ _
  | eraseBetween _ _ => exact rootMember_modifyGraph fun graph => rfl
  | uninstrument =>
      rw [rootMember, Arena.uninstrumented, List.getElem?_map, rootMember]
      cases arena.graphs[0]? with
      | none => rfl
      | some graph =>
          have hkept : graph.fields.uninstrumented.value? key = graph.fields.value? key :=
            Fields.value?_modifyAttributes_of_ne _ hattributes
          exact hkept

/-! ## Legible arenas -/

/-- What it takes for the document of an arena to be accepted as a graph. -/
structure Legible (arena : Arena) : Prop where
  formed : arena.WellFormed
  typed : arena.Typed
  ends : arena.EndsFit
  plain : arena.rootMember "error" = none

theorem legible_of_readPayload {payload : Json} (h : readPayload payload = .ok arena) :
    arena.Legible := by
  obtain ⟨hplain, hdecoded⟩ := readPayload_eq_ok.mp h
  refine ⟨ofJson_wellFormed hdecoded, ofJson_typed hdecoded, ofJson_endsFit hdecoded, ?_⟩
  obtain ⟨fields, hfields, hdecoded⟩ := bind_eq_ok.mp hdecoded
  obtain ⟨graphs, hgraphs, hdecoded⟩ := bind_eq_ok.mp hdecoded
  cases hdecoded
  obtain rfl := Part.fields_eq_ok.mp hfields
  obtain ⟨_, _, hgraphs⟩ := bind_eq_ok.mp hgraphs
  obtain ⟨_, _, hgraphs⟩ := bind_eq_ok.mp hgraphs
  obtain ⟨_, _, hgraphs⟩ := bind_eq_ok.mp hgraphs
  obtain ⟨⟨states, blocks⟩, _, hgraphs⟩ := bind_eq_ok.mp hgraphs
  obtain ⟨edges, _, hgraphs⟩ := bind_eq_ok.mp hgraphs
  cases hgraphs
  have hkept : ((fields.without "nodes").without "edges").value? "error" =
      fields.value? "error" := by
    rw [Fields.value?_without_of_ne _ _ _ (by decide),
      Fields.value?_without_of_ne _ _ _ (by decide)]
  exact hkept.trans hplain

/-- An arena is legible whose graph was accepted. -/
theorem legible_of_readPayloadOrText {payload : Json}
    (h : readPayloadOrText payload = .ok arena) : arena.Legible := by
  obtain ⟨document, _, hread⟩ := readPayloadOrText_eq_ok.mp h
  exact legible_of_readPayload hread

/-- A legible arena is decoded from its document. -/
theorem Legible.ofJson_toJson (h : arena.Legible) : ofJson arena.toJson = .ok arena.reread :=
  h.formed.ofJson_toJson_of_endsFit h.typed h.ends

/-- The document of a legible arena is accepted, and read as it stands. -/
theorem Legible.readPayloadOrText_toJson (h : arena.Legible) :
    readPayloadOrText arena.toJson = .ok arena.reread := by
  obtain ⟨graph, hgraph, _⟩ := Option.map_eq_some_iff.mp h.formed.root
  have hdocument : arena.toJson = graph.encode arena.document 0 :=
    h.formed.document_eq hgraph
  have hplain : arena.toJson.member? "error" = none := by
    have herror := h.plain
    rw [rootMember, hgraph, Option.bind_some] at herror
    rw [hdocument, Json.member?, Subgraph.encode, Json.asObject?, Option.bind_some,
      Fields.value?_put_of_ne _ _ _ _ (by decide), Fields.value?_put_of_ne _ _ _ _ (by decide),
      Subgraph.value?_numbered_of_ne (by decide) (by decide), herror]
  have hread := readPayload_eq_ok.mpr ⟨hplain, h.ofJson_toJson⟩
  rw [hdocument, Subgraph.encode] at hread ⊢
  rwa [readPayloadOrText_obj]

/-- Edits that keep kinds and ends keep an arena legible. -/
theorem Legible.effect (h : arena.Legible) {edit : Edit} {result : Arena} {place : Option Nat}
    (heffect : arena.Effect edit result place) (hkeeps : edit.KeepsKinds)
    (hends : edit.EndsFit) : result.Legible where
  formed := h.formed.effect heffect
  typed := h.typed.effect h.formed hkeeps heffect
  ends := h.ends.effect h.formed hends heffect
  plain := (h.formed.rootMember_effect heffect (by decide) (by decide)).trans h.plain

/-- Attributes are not looked at when a graph is read. -/
theorem Legible.modifyAttributes (h : arena.Legible) (id : Nat) (change : Fields → Fields) :
    (arena.modifyGraph id fun graph =>
      { graph with fields := graph.fields.modifyAttributes change }).Legible where
  formed := h.formed.modifyGraph fun graph hgraph =>
    ⟨rfl, rfl, ⟨(h.formed.edges graph (List.mem_of_getElem? hgraph)).between,
      (h.formed.edges graph (List.mem_of_getElem? hgraph)).within⟩⟩
  typed := forall_modifyGraph h.typed fun graph hgraph =>
    ⟨(Subgraph.checkKind_congr (Fields.value?_modifyAttributes_of_ne _ (by decide))).trans
      (h.typed graph hgraph).kind, (h.typed graph hgraph).states⟩
  ends := forall_modifyGraph h.ends fun graph hgraph =>
    ⟨(h.ends graph hgraph).between, (h.ends graph hgraph).within⟩
  plain := (rootMember_modifyGraph fun graph =>
    Fields.value?_modifyAttributes_of_ne _ (by decide)).trans h.plain

end Arena

/-- Every payload that is read is a well-formed arena. -/
theorem readPayloadOrText_wellFormed {payload : Json} {arena : Arena}
    (h : readPayloadOrText payload = .ok arena) : arena.WellFormed :=
  (Arena.legible_of_readPayloadOrText h).formed

end DataflowEditor
