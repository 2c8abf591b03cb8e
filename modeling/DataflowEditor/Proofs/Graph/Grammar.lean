import DataflowEditor.Proofs.Graph.Descent
import DataflowEditor.Proofs.Graph.NormalForm
import Mathlib.Algebra.GroupWithZero.Nat

/-! # The grammar of graph documents

A document is accepted as a graph exactly if it follows a grammar, which is told here on the nested
document alone. Nothing but the grammar is asked of it, at any depth. A document that does not
follow it is refused as no valid graph, and one that does gives an arena with a graph for the
document itself and one for each node that owns a graph.
-/

namespace DataflowEditor

/-! ## The grammar -/

/-- The document gives an index: a number of 64 bits, or digits for one, with or without a plus
sign. -/
inductive Json.IsIndex : Json → Nat → Prop
  | number {index : Nat} : index < wordCount → IsIndex (.nat index) index
  | text {sign digits : List Char} : sign = [] ∨ sign = ['+'] → digits ≠ [] →
      (∀ c ∈ digits, c.isDigit = true) → Nat.ofDigitChars 10 digits 0 < wordCount →
      IsIndex (.str (String.ofList (sign ++ digits))) (Nat.ofDigitChars 10 digits 0)

namespace Grammar

/-- A list may be left out, and null stands for one. -/
def HasList (key : String) (fields : Fields) : Prop :=
  fields.value? key = none ∨ fields.value? key = some .null ∨
    ∃ items, fields.value? key = some (.arr items)

/-- An end of an edge is the index of one of so many elements. -/
def HasEnd (bound : Nat) (key : String) (fields : Fields) : Prop :=
  ∃ document, fields.value? key = some document ∧ ∃ index < bound, document.IsIndex index

inductive IsEdge (bound : Nat) : Json → Prop
  | object {fields : Fields} :
      HasEnd bound "src" fields → HasEnd bound "dst" fields → IsEdge bound (.obj fields)

mutual

/-- A graph lists states as its nodes. It does not have to name its type. -/
inductive IsGraph : Json → Prop
  | object {fields : Fields} :
      (∀ name, fields.value? "type" = some (.str name) → name = "SDFG") →
      HasList "nodes" fields → HasList "edges" fields →
      (∀ state ∈ fields.items "nodes", IsState state) →
      (∀ edge ∈ fields.items "edges", IsEdge (fields.items "nodes").length edge) →
      IsGraph (.obj fields)

inductive IsState : Json → Prop
  | object {fields : Fields} :
      HasList "nodes" fields → HasList "edges" fields →
      (∀ node ∈ fields.items "nodes", IsNode node) →
      (∀ edge ∈ fields.items "edges", IsEdge (fields.items "nodes").length edge) →
      IsState (.obj fields)

/-- A node may be any object, unless its type says that it owns a graph. -/
inductive IsNode : Json → Prop
  | plain {fields : Fields} : fields.value? "type" ≠ some (.str "NestedSDFG") → IsNode (.obj fields)
  | owner {fields attributes : Fields} {document : Json} :
      fields.value? "type" = some (.str "NestedSDFG") →
      fields.value? "attributes" = some (.obj attributes) →
      attributes.value? "sdfg" = some document → IsGraph document → IsNode (.obj fields)

end

/-- The document that a node holds as the graph it owns, null if it holds none. -/
def embeddedGraph (node : Json) : Json :=
  ((node.member? "attributes").bind (Json.member? · "sdfg")).getD .null

/-- The nodes that own graphs, counted in a graph and, to a depth, in the graphs that they own. -/
def ownersWithin : Nat → Json → Nat
  | 0, _ => 0
  | depth + 1, graph =>
    ((graph.fields.items "nodes").map fun state =>
      ((state.fields.items "nodes").map fun node =>
        if node.fields.text "type" = "NestedSDFG" then
          1 + ownersWithin depth (embeddedGraph node)
        else 0).sum).sum

/-- The number of nodes that own graphs, at all levels of a graph. -/
def ownerCount (graph : Json) : Nat :=
  ownersWithin graph.depth graph

/-- What a node counts for: itself and the owners in its graph, if it owns one. -/
def ownersAt (node : Json) : Nat :=
  if node.fields.text "type" = "NestedSDFG" then 1 + ownerCount (embeddedGraph node) else 0

/-! ## Counting owners -/

theorem depth_le_of_mem_items {fields : Fields} {item : Json} {key : String}
    (h : item ∈ fields.items key) : item.depth ≤ Json.depthMembers fields := by
  unfold Fields.items at h
  cases hvalue : fields.value? key with
  | none => simp [hvalue] at h
  | some value =>
      rw [hvalue] at h
      cases value with
      | arr items =>
          have hitem : item ∈ items := h
          have hlist := Json.depth_le_of_value? hvalue
          have hdeep := Json.depth_le_of_mem hitem
          rw [Json.depth] at hlist
          omega
      | _ => simp [Json.asArray?] at h

/-- A listed document is nested less deep than the document that lists it. -/
theorem depth_lt_of_mem_items {document item : Json} {key : String}
    (h : item ∈ document.fields.items key) : item.depth < document.depth := by
  cases document with
  | obj members =>
      rw [Json.depth]
      exact Nat.lt_succ_of_le (depth_le_of_mem_items h)
  | _ => simp [Json.fields, Json.asObject?, Fields.items, Fields.value?] at h

theorem depth_embeddedGraph_le (node : Json) : (embeddedGraph node).depth ≤ node.depth := by
  have hmember : ∀ {document found : Json} {key : String}, document.member? key = some found →
      found.depth ≤ document.depth := by
    intro document found key h
    obtain ⟨members, hmembers, hfound⟩ := Option.bind_eq_some_iff.mp h
    cases document with
    | obj members =>
        cases hmembers
        rw [Json.depth]
        exact Nat.le_succ_of_le (Json.depth_le_of_value? hfound)
    | _ => cases hmembers
  rw [embeddedGraph]
  cases hattributes : node.member? "attributes" with
  | none => exact Nat.zero_le _
  | some attributes =>
      cases hgraph : attributes.member? "sdfg" with
      | none => simp [hgraph, Json.depth]
      | some graph =>
          simp only [Option.bind_some, hgraph, Option.getD_some]
          exact Nat.le_trans (hmember hgraph) (hmember hattributes)

theorem ownersWithin_flat {graph : Json} (h : graph.depth = 0) (depth : Nat) :
    ownersWithin depth graph = 0 := by
  have hitems : graph.fields.items "nodes" = [] := by
    refine List.eq_nil_iff_forall_not_mem.mpr fun state hstate => ?_
    have hlt := depth_lt_of_mem_items hstate
    omega
  cases depth <;> simp [ownersWithin, hitems]

/-- The bound of a count may be any that the depth of the graph keeps to. -/
theorem ownersWithin_eq {depth other : Nat} {graph : Json} (hdepth : graph.depth ≤ depth)
    (hother : graph.depth ≤ other) : ownersWithin depth graph = ownersWithin other graph := by
  induction depth generalizing other graph with
  | zero => rw [ownersWithin_flat (by omega), ownersWithin_flat (by omega)]
  | succ depth ih =>
      cases other with
      | zero => rw [ownersWithin_flat (by omega), ownersWithin_flat (by omega)]
      | succ other =>
          rw [ownersWithin, ownersWithin]
          refine congrArg List.sum (List.map_congr_left fun state hstate => ?_)
          refine congrArg List.sum (List.map_congr_left fun node hnode => ?_)
          have hlt := depth_lt_of_mem_items hstate
          have hbelow := depth_lt_of_mem_items hnode
          have hgraph := depth_embeddedGraph_le node
          have hcount : ownersWithin depth (embeddedGraph node) =
              ownersWithin other (embeddedGraph node) := ih (by omega) (by omega)
          rw [hcount]

/-- Owners are counted without a bound. -/
theorem ownerCount_eq (graph : Json) : ownerCount graph =
    ((graph.fields.items "nodes").map fun state =>
      ((state.fields.items "nodes").map ownersAt).sum).sum := by
  -- With one level to spare the recursion can be opened, whatever the depth is.
  have hmore : ownerCount graph = ownersWithin (graph.depth + 1) graph :=
    ownersWithin_eq (Nat.le_refl _) (Nat.le_succ _)
  rw [hmore, ownersWithin]
  refine congrArg List.sum (List.map_congr_left fun state hstate => ?_)
  refine congrArg List.sum (List.map_congr_left fun node hnode => ?_)
  have hlt := depth_lt_of_mem_items hstate
  have hbelow := depth_lt_of_mem_items hnode
  have hgraph := depth_embeddedGraph_le node
  have hcount : ownerCount (embeddedGraph node) = ownersWithin graph.depth (embeddedGraph node) :=
    ownersWithin_eq (Nat.le_refl _) (by omega)
  rw [ownersAt, hcount]

end Grammar

/-! ## Indices -/

/-- The decoder reads an index from exactly the documents that the grammar takes for one. -/
theorem Json.asIndex?_eq_some {document : Json} {index : Nat} :
    document.asIndex? = some index ↔ document.IsIndex index := by
  constructor
  · intro h
    unfold asIndex? at h
    split at h
    next text =>
      cases hread : Text.readUnsigned (wordCount - 1) text.toList with
      | error =>
          rw [hread] at h
          cases h
      | ok found =>
          rw [hread] at h
          obtain rfl : found = index := Option.some.inj h
          obtain ⟨sign, digits, htext, hsign, hdigits, hall, rfl, hlimit⟩ :=
            Text.readUnsigned_eq_ok.mp hread
          have htext : text = String.ofList (sign ++ digits) := by
            rw [← htext, String.ofList_toList]
          rw [htext]
          exact .text hsign hdigits hall (Nat.lt_of_le_pred (by decide) hlimit)
    next =>
      obtain ⟨rfl, hlt⟩ := asNat?_eq_some.mp h
      exact .number hlt
  · rintro (hlt | ⟨hsign, hdigits, hall, hlt⟩)
    · change (nat index).asNat? = some index
      exact asNat?_eq_some.mpr ⟨rfl, hlt⟩
    · have hread := Text.readUnsigned_eq_ok.mpr
        ⟨_, _, rfl, hsign, hdigits, hall, rfl, Nat.le_sub_one_of_lt hlt⟩
      rw [asIndex?, String.toList_ofList, hread]
      rfl

/-! ## Verdicts -/

/-- Decoding accepts what is in order, with a result of some kind, and refuses all else as no valid
graph. -/
def Judges {α : Type} (outcome : Except GraphError α) (accepted : Prop) (result : α → Prop) :
    Prop :=
  match outcome with
  | .ok value => accepted ∧ result value
  | .error error => ¬ accepted ∧ ∃ fault, error = .invalidGraph fault

namespace Judges

variable {α β : Type} {first : Except GraphError α} {more : α → Except GraphError β}
  {accepted again : Prop} {result : α → Prop} {results : β → Prop}

/-- One check after another accepts what both accept, the second judging the first one's result. -/
theorem bind (h : Judges first accepted result)
    (hmore : ∀ value, accepted → result value → Judges (more value) again results) :
    Judges (first >>= more) (accepted ∧ again) results := by
  cases first with
  | error error => exact ⟨fun hboth => h.1 hboth.1, h.2⟩
  | ok value =>
      have hnext := hmore value h.1 h.2
      rw [ok_bind]
      cases hvalue : more value with
      | error error =>
          rw [hvalue] at hnext
          exact ⟨fun hboth => hnext.1 hboth.2, hnext.2⟩
      | ok found =>
          rw [hvalue] at hnext
          exact ⟨⟨h.1, hnext.1⟩, hnext.2⟩

/-- What remains to be done cannot fail. -/
theorem map (h : Judges first accepted result)
    (hmore : ∀ value, result value → ∃ found, more value = .ok found ∧ results found) :
    Judges (first >>= more) accepted results := by
  cases first with
  | error error => exact h
  | ok value =>
      rcases hmore value h.2 with ⟨found, hfound, hresults⟩
      rw [ok_bind, hfound]
      exact ⟨h.1, hresults⟩

theorem congr {accepted' : Prop} (h : Judges first accepted result)
    (haccepted : accepted ↔ accepted') : Judges first accepted' result := by
  rwa [← propext haccepted]

end Judges

/-! ## Members -/

theorem Part.fields_judges (part : Part) (document : Json) :
    Judges (part.fields document) (document = .obj document.fields)
      (fun fields => document = .obj fields) := by
  cases document with
  | obj members => exact ⟨rfl, rfl⟩
  | _ =>
      refine ⟨fun h => ?_, _, rfl⟩
      cases h

/-- A list of a part is read where the grammar has one; it is the items of that list. -/
theorem Part.items_judges (part : Part) (key : String) (fields : Fields) :
    Judges (part.items key fields) (Grammar.HasList key fields)
      (fun items => items = fields.items key) := by
  unfold Part.items
  split
  next hnone => exact ⟨.inl hnone, by simp [Fields.items, hnone]⟩
  next hnull => exact ⟨.inr (.inl hnull), by simp [Fields.items, hnull, Json.asArray?]⟩
  next items harray =>
    exact ⟨.inr (.inr ⟨items, harray⟩), by simp [Fields.items, harray, Json.asArray?]⟩
  next other hnull harray hother =>
    refine ⟨?_, _, rfl⟩
    rintro (hnone | hnull' | ⟨items, harray'⟩)
    · simp [hother] at hnone
    · exact hnull (by simpa [hother] using hnull')
    · exact harray items (by simpa [hother] using harray')

/-- A graph may leave its type out; where it names one, that is SDFG. -/
theorem Subgraph.checkKind_judges (fields : Fields) :
    Judges (checkKind fields)
      (∀ name, fields.value? "type" = some (.str name) → name = "SDFG") (fun _ => True) := by
  unfold checkKind
  split
  next hkind =>
    refine ⟨fun name hname => ?_, trivial⟩
    simpa [hname, Json.asString?] using hkind
  next other hother hkind =>
    refine ⟨fun hall => ?_, _, rfl⟩
    rcases Option.bind_eq_some_iff.mp hkind with ⟨document, hdocument, hstring⟩
    cases document with
    | str name =>
        cases hstring
        exact hother (hall _ hdocument)
    | _ => cases hstring
  next hkind =>
    refine ⟨fun name hname => ?_, trivial⟩
    simp [hname, Json.asString?] at hkind

/-! ## Edges -/

namespace Edge

/-- An edge end is read where the grammar has one below the bound. -/
theorem endpoint_judges (place bound : Nat) (container : Container) (key : String)
    (fields : Fields) :
    Judges (endpoint place bound container key fields) (Grammar.HasEnd bound key fields)
      (fun _ => True) := by
  have hindex : ∀ index, (∃ document, fields.value? key = some document ∧
      document.IsIndex index) ↔ (fields.value? key).bind Json.asIndex? = some index := by
    simp only [Option.bind_eq_some_iff, Json.asIndex?_eq_some, implies_true]
  unfold endpoint
  split
  next hnone =>
    refine ⟨?_, _, rfl⟩
    rintro ⟨document, hdocument, index, -, hgiven⟩
    rw [(hindex index).mp ⟨document, hdocument, hgiven⟩] at hnone
    cases hnone
  next index hsome =>
    rcases (hindex index).mpr hsome with ⟨document, hdocument, hgiven⟩
    split
    next hlt => exact ⟨⟨document, hdocument, index, hlt, hgiven⟩, trivial⟩
    next hge =>
      refine ⟨?_, _, rfl⟩
      rintro ⟨other, hother, place, hlt, hplace⟩
      have hsame := (hindex place).mp ⟨other, hother, hplace⟩
      rw [hsome] at hsame
      cases hsame
      exact hge hlt

theorem isEdge_iff {bound : Nat} {document : Json} :
    (document = .obj document.fields ∧ Grammar.HasEnd bound "src" document.fields ∧
      Grammar.HasEnd bound "dst" document.fields) ↔ Grammar.IsEdge bound document := by
  constructor
  · rintro ⟨hobject, hsource, htarget⟩
    rw [hobject]
    exact .object hsource htarget
  · rintro ⟨hsource, htarget⟩
    exact ⟨rfl, hsource, htarget⟩

/-- An edge is decoded exactly from a document that the grammar calls one. -/
theorem decode_judges (place bound : Nat) (container : Container) (document : Json) :
    Judges (decode place bound container document) (Grammar.IsEdge bound document)
      (fun _ => True) := by
  refine Judges.congr (Judges.bind (Part.fields_judges .edge document) ?_) isEdge_iff
  rintro fields - rfl
  refine Judges.bind (endpoint_judges place bound container "src" fields) fun source _ _ => ?_
  exact Judges.map (endpoint_judges place bound container "dst" fields) fun _ _ =>
    ⟨_, rfl, trivial⟩

/-- A list of edges is decoded exactly when each document is one. -/
theorem decodeAll_judges (bound : Nat) (container : Container) (place : Nat)
    (documents : List Json) :
    Judges (decodeAll bound container place documents)
      (∀ document ∈ documents, Grammar.IsEdge bound document) (fun _ => True) := by
  induction documents generalizing place with
  | nil => exact ⟨by simp, trivial⟩
  | cons document rest ih =>
      refine Judges.congr ?_ List.forall_mem_cons.symm
      refine Judges.bind (decode_judges place bound container document) fun edge _ _ => ?_
      exact Judges.map (ih (place + 1)) fun _ _ => ⟨_, rfl, trivial⟩

end Edge

/-! ## Nodes -/

namespace Node

/-- A node that owns no graph is in order, one without a document for the graph it should own is
not, and any other one is in order if its document is. -/
inductive Embeds (fields : Fields) : Except GraphError (Option Fields) → Prop
  | plain : Grammar.IsNode (.obj fields) → Grammar.ownersAt (.obj fields) = 0 →
      Embeds fields (.ok none)
  | missing (fault : DocumentFault) : ¬ Grammar.IsNode (.obj fields) →
      Embeds fields (.error (.invalidGraph fault))
  | owner (inner : Fields) :
      (Grammar.IsNode (.obj fields) ↔ Grammar.IsGraph (.obj inner)) →
      Grammar.ownersAt (.obj fields) = 1 + Grammar.ownerCount (.obj inner) →
      Embeds fields (.ok (some inner))

theorem embeddedGraph_eq (fields : Fields) : Grammar.embeddedGraph (.obj fields) =
    (((fields.value? "attributes").bind Json.asObject?).bind (Fields.value? · "sdfg")).getD
      .null := by
  simp only [Grammar.embeddedGraph, Json.member?, Json.asObject?, Option.bind_some,
    Option.bind_assoc]

/-- Whether an owner is in order is up to the document it holds. -/
theorem isNode_iff {fields : Fields} (h : fields.value? "type" = some (.str "NestedSDFG")) :
    Grammar.IsNode (.obj fields) ↔ ∃ document,
      ((fields.value? "attributes").bind Json.asObject?).bind (Fields.value? · "sdfg") =
        some document ∧ Grammar.IsGraph document := by
  constructor
  · rintro (hplain | ⟨-, hattributes, hgraph, haccepted⟩)
    · exact absurd h hplain
    · refine ⟨_, ?_, haccepted⟩
      rw [hattributes]
      exact hgraph
  · rintro ⟨document, hdocument, haccepted⟩
    rcases Option.bind_eq_some_iff.mp hdocument with ⟨members, hmembers, hgraph⟩
    rcases Option.bind_eq_some_iff.mp hmembers with ⟨attributes, hattributes, hobject⟩
    cases attributes with
    | obj attributes =>
        cases hobject
        exact .owner h hattributes hgraph haccepted
    | _ => cases hobject

/-- What a node embeds is what the grammar finds in its attributes. -/
theorem embedded_embeds (fields : Fields) : Embeds fields (embedded fields) := by
  have htype : (fields.value? "type").bind Json.asString? = some "NestedSDFG" ↔
      fields.value? "type" = some (.str "NestedSDFG") := by
    constructor
    · intro h
      rcases Option.bind_eq_some_iff.mp h with ⟨document, hdocument, hstring⟩
      cases document with
      | str name =>
          cases hstring
          exact hdocument
      | _ => cases hstring
    · intro h
      rw [h]
      rfl
  have htext : (Json.obj fields).fields.text "type" = "NestedSDFG" ↔
      fields.value? "type" = some (.str "NestedSDFG") :=
    (Fields.text_eq_iff (by decide)).trans htype
  unfold embedded
  split
  next howner =>
    have howner := htype.mp howner
    -- An owner counts itself and what is counted in its graph.
    have hcount : Grammar.ownersAt (.obj fields) =
        1 + Grammar.ownerCount (Grammar.embeddedGraph (.obj fields)) :=
      if_pos (htext.mpr howner)
    rw [embeddedGraph_eq] at hcount
    split
    next document hdocument =>
      rw [hdocument] at hcount
      have hiff : Grammar.IsNode (.obj fields) ↔ Grammar.IsGraph document := by
        simp [isNode_iff howner, hdocument]
      cases document with
      | obj inner => exact .owner inner hiff hcount
      | _ =>
          refine .missing _ fun hnode => ?_
          cases hiff.mp hnode
    next hnone =>
      refine .missing _ fun hnode => ?_
      rcases (isNode_iff howner).mp hnode with ⟨document, hdocument, -⟩
      rw [hdocument] at hnone
      cases hnone
  next hplain =>
    exact .plain (.plain fun h => hplain (htype.mpr h)) (if_neg fun h => hplain (htype.mpr
      (htext.mp h)))

end Node

/-! ## States and graphs -/

/-- A decoder of nested graphs judges those that are less deep than a bound. -/
def NestedDecoder.JudgesWithin (nested : NestedDecoder) (bound : Nat) : Prop :=
  ∀ (next : Nat) (location : Location) (inner : Fields), Json.depthMembers inner < bound →
    Judges (nested next location inner) (Grammar.IsGraph (.obj inner))
      (fun block => block.length = 1 + Grammar.ownerCount (.obj inner))

namespace State

variable {nested : NestedDecoder} {bound : Nat}

/-- The nodes of a state are decoded exactly from node documents, with one graph for each owner
below them. -/
theorem decodeNodes_judges (hnested : nested.JudgesWithin bound) (graph state next place : Nat)
    {documents : List Json} (hdocuments : ∀ document ∈ documents, document.depth ≤ bound) :
    Judges (decodeNodes nested graph state next place documents)
      (∀ document ∈ documents, Grammar.IsNode document)
      (fun decoded => decoded.1.length = documents.length ∧
        decoded.2.length = (documents.map Grammar.ownersAt).sum) := by
  induction documents generalizing next place with
  | nil => exact ⟨by simp, rfl, rfl⟩
  | cons document rest ih =>
      rcases List.forall_mem_cons.mp hdocuments with ⟨hfirst, hrest⟩
      refine Judges.congr ?_ List.forall_mem_cons.symm
      cases document with
      | obj fields =>
          rw [Json.depth] at hfirst
          rw [decodeNodes, Part.fields, ok_bind]
          have hembeds := Node.embedded_embeds fields
          cases hembedded : Node.embedded fields with
          | error error =>
              rw [hembedded] at hembeds
              rcases hembeds with _ | ⟨fault, hfault⟩
              exact ⟨fun hboth => hfault hboth.1, fault, rfl⟩
          | ok embedded =>
              rw [hembedded] at hembeds
              rw [ok_bind]
              rcases hembeds with ⟨hnode, hcount⟩ | _ | ⟨inner, hiff, hcount⟩
              · refine Judges.congr (Judges.map (ih next (place + 1) hrest) ?_)
                  (and_iff_right hnode).symm
                rintro ⟨nodes, blocks⟩ ⟨hnodes, hblocks⟩
                refine ⟨_, rfl, congrArg (· + 1) hnodes, ?_⟩
                rw [List.map_cons, List.sum_cons, hcount, Nat.zero_add]
                exact hblocks
              · -- The graph of this node comes in front of those of the nodes behind it.
                have hdepth := Node.depth_lt_of_embedded hembedded
                refine Judges.congr ?_ (and_congr_left' hiff.symm)
                refine Judges.bind (hnested next ⟨graph, state, place⟩ inner (by omega)) ?_
                rintro block - hblock
                refine Judges.map (ih (next + block.length) (place + 1) hrest) ?_
                rintro ⟨nodes, blocks⟩ ⟨hnodes, hblocks⟩
                refine ⟨_, rfl, congrArg (· + 1) hnodes, ?_⟩
                rw [List.map_cons, List.sum_cons, hcount, List.length_append, hblock, hblocks]
      | _ =>
          refine ⟨fun hboth => ?_, _, rfl⟩
          cases hboth.1

theorem isState_iff {document : Json} :
    (document = .obj document.fields ∧ Grammar.HasList "nodes" document.fields ∧
      Grammar.HasList "edges" document.fields ∧
      (∀ node ∈ document.fields.items "nodes", Grammar.IsNode node) ∧
      ∀ edge ∈ document.fields.items "edges",
        Grammar.IsEdge (document.fields.items "nodes").length edge) ↔
      Grammar.IsState document := by
  constructor
  · rintro ⟨hobject, hnodes, hedges, hallNodes, hallEdges⟩
    rw [hobject]
    exact .object hnodes hedges hallNodes hallEdges
  · rintro ⟨hnodes, hedges, hallNodes, hallEdges⟩
    exact ⟨rfl, hnodes, hedges, hallNodes, hallEdges⟩

/-- The owners among the nodes of a state, with all in the graphs that they own. -/
theorem decode_judges (hnested : nested.JudgesWithin bound) (graph next place : Nat)
    {document : Json} (hdocument : document.depth ≤ bound) :
    Judges (decode nested graph next place document) (Grammar.IsState document)
      (fun decoded => decoded.2.length =
        ((document.fields.items "nodes").map Grammar.ownersAt).sum) := by
  refine Judges.congr (Judges.bind (Part.fields_judges .state document) ?_) isState_iff
  rintro fields - rfl
  rw [Json.depth] at hdocument
  refine Judges.bind (Part.items_judges .state "nodes" fields) ?_
  rintro nodeDocuments hlist rfl
  refine Judges.bind (Part.items_judges .state "edges" fields) ?_
  rintro edgeDocuments - rfl
  have hdepth : ∀ node ∈ fields.items "nodes", node.depth ≤ bound := by
    intro node hnode
    have hle := Grammar.depth_le_of_mem_items hnode
    omega
  refine Judges.bind (decodeNodes_judges hnested graph place next 0 hdepth) ?_
  rintro ⟨nodes, blocks⟩ - ⟨hnodes, hblocks⟩
  simp only at hnodes hblocks ⊢
  rw [hnodes]
  exact Judges.map (Edge.decodeAll_judges _ (.state graph place) 0 _) fun _ _ =>
    ⟨_, rfl, hblocks⟩

/-- The states of a graph are decoded exactly from state documents, with one graph for each owner
below them. -/
theorem decodeAll_judges (hnested : nested.JudgesWithin bound) (graph next place : Nat)
    {documents : List Json} (hdocuments : ∀ document ∈ documents, document.depth ≤ bound) :
    Judges (decodeAll nested graph next place documents)
      (∀ document ∈ documents, Grammar.IsState document)
      (fun decoded => decoded.1.length = documents.length ∧
        decoded.2.length = (documents.map fun document =>
          ((document.fields.items "nodes").map Grammar.ownersAt).sum).sum) := by
  induction documents generalizing next place with
  | nil => exact ⟨by simp, rfl, rfl⟩
  | cons document rest ih =>
      rcases List.forall_mem_cons.mp hdocuments with ⟨hfirst, hrest⟩
      refine Judges.congr ?_ List.forall_mem_cons.symm
      refine Judges.bind (decode_judges hnested graph next place hfirst) ?_
      rintro ⟨state, block⟩ - hblock
      refine Judges.map (ih (next + block.length) (place + 1) hrest) ?_
      rintro ⟨states, blocks⟩ ⟨hstates, hblocks⟩
      refine ⟨_, rfl, congrArg (· + 1) hstates, ?_⟩
      rw [List.map_cons, List.sum_cons, List.length_append, hblock, hblocks]

end State

namespace Subgraph

theorem isGraph_iff {fields : Fields} :
    ((∀ name, fields.value? "type" = some (.str name) → name = "SDFG") ∧
      Grammar.HasList "nodes" fields ∧ Grammar.HasList "edges" fields ∧
      (∀ state ∈ fields.items "nodes", Grammar.IsState state) ∧
      ∀ edge ∈ fields.items "edges", Grammar.IsEdge (fields.items "nodes").length edge) ↔
      Grammar.IsGraph (.obj fields) := by
  constructor
  · rintro ⟨hkind, hstates, hedges, hallStates, hallEdges⟩
    exact .object hkind hstates hedges hallStates hallEdges
  · rintro ⟨hkind, hstates, hedges, hallStates, hallEdges⟩
    exact ⟨hkind, hstates, hedges, hallStates, hallEdges⟩

/-- If the nested decoder accepts the grammar further down, the graph decoder does so here. -/
theorem decodeWith_judges {nested : NestedDecoder} {fields : Fields}
    (hnested : nested.JudgesWithin (Json.depthMembers fields)) (id : Nat)
    (owner : Option Location) :
    Judges (decodeWith nested id owner fields) (Grammar.IsGraph (.obj fields))
      (fun block => block.length = 1 + Grammar.ownerCount (.obj fields)) := by
  refine Judges.congr (Judges.bind (checkKind_judges fields) fun _ _ _ => ?_) isGraph_iff
  refine Judges.bind (Part.items_judges .graph "nodes" fields) ?_
  rintro stateDocuments - rfl
  refine Judges.bind (Part.items_judges .graph "edges" fields) ?_
  rintro edgeDocuments - rfl
  refine Judges.bind (State.decodeAll_judges hnested id (id + 1) 0
    fun state => Grammar.depth_le_of_mem_items) ?_
  rintro ⟨states, blocks⟩ - ⟨hstates, hblocks⟩
  simp only at hstates hblocks ⊢
  rw [hstates]
  refine Judges.map (Edge.decodeAll_judges _ (.graph id) 0 _) fun _ _ => ⟨_, rfl, ?_⟩
  rw [Grammar.ownerCount_eq, List.length_cons, hblocks, Nat.add_comm]
  rfl

/-- The induction is on the depth of the document, in which whatever is nested is less deep. -/
theorem decode_judges (id : Nat) (owner : Option Location) (fields : Fields) :
    Judges (decode id owner fields) (Grammar.IsGraph (.obj fields))
      (fun block => block.length = 1 + Grammar.ownerCount (.obj fields)) := by
  induction hdepth : Json.depthMembers fields using Nat.strongRecOn
    generalizing id owner fields with
  | ind depth ih =>
      rw [decode_eq]
      refine decodeWith_judges (fun next location inner hinner => ?_) id owner
      exact ih _ (hdepth ▸ hinner) next (some location) inner rfl

end Subgraph

namespace Arena

/-- A document is accepted if and only if it follows the grammar. All others are refused as no valid
graph, and an accepted one has a graph for each node that owns one, and one for itself. -/
theorem ofJson_accepts (document : Json) :
    ((∃ arena, ofJson document = .ok arena) ↔ Grammar.IsGraph document) ∧
      (∀ error, ofJson document = .error error → ∃ fault, error = .invalidGraph fault) ∧
      ∀ arena, ofJson document = .ok arena →
        arena.graphs.length = 1 + Grammar.ownerCount document := by
  have hjudges : Judges (ofJson document) (Grammar.IsGraph document)
      (fun arena => arena.graphs.length = 1 + Grammar.ownerCount document) := by
    cases document with
    | obj fields =>
        rw [ofJson, Part.fields, ok_bind]
        exact Judges.map (Subgraph.decode_judges 0 none fields) fun block hblock =>
          ⟨⟨block⟩, rfl, hblock⟩
    | _ =>
        refine ⟨fun h => ?_, _, rfl⟩
        cases h
  cases houtcome : ofJson document with
  | ok arena =>
      rw [houtcome] at hjudges
      refine ⟨⟨fun _ => hjudges.1, fun _ => ⟨arena, rfl⟩⟩, ?_, ?_⟩
      · rintro error ⟨⟩
      · rintro _ ⟨⟩
        exact hjudges.2
  | error error =>
      rw [houtcome] at hjudges
      refine ⟨⟨?_, fun h => absurd h hjudges.1⟩, ?_, ?_⟩
      · rintro ⟨_, ⟨⟩⟩
      · rintro _ ⟨⟩
        exact hjudges.2
      · rintro _ ⟨⟩

theorem nestedDocument_accepted : Grammar.IsGraph nestedDocument ∧
    nestedArena.graphs.length = 1 + Grammar.ownerCount nestedDocument :=
  ⟨(ofJson_accepts nestedDocument).1.mp ⟨nestedArena, ofJson_nestedDocument⟩,
    (ofJson_accepts nestedDocument).2.2 nestedArena ofJson_nestedDocument⟩

end Arena

end DataflowEditor
