import DataflowEditor.Proofs.Graph.RoundTrip
import DataflowEditor.Proofs.Service.Insertion
import DataflowEditor.Service.Removal

/-! # Sessions of an editor

The editor holds no graph of its own: it sends the graph of one answer with the next request. A
session is a sequence of such requests, all of which succeed. The graph of an answer is accepted,
and the addresses in the answer lead to what is new in it, except where a library class has been put
in whose name is the type of nodes with a graph of their own.
-/

namespace DataflowEditor

/-- What an editor asks for, apart from the graph to change. -/
inductive Change where
  | insert (kind : String) (parent start : Option String)
  | remove (addresses : List String)
deriving DecidableEq, Inhabited

namespace Change

/-- The new graph, and the addresses of what is new in it: none after a removal. -/
def run (graph : Json) : Change → Attempt Inserted
  | .insert kind parent start => InsertionRequest.run ⟨graph, kind, parent, start⟩
  | .remove addresses => do return ⟨← RemovalRequest.run ⟨graph, addresses⟩, []⟩

/-- No library class passes for the type of nodes with a graph of their own. -/
def WellNamed : Change → Prop
  | .insert kind _ _ => ∀ found ∈ InsertKind.ofText? kind, found.WellNamed
  | .remove _ => True

instance : DecidablePred WellNamed
  | .insert kind _ _ =>
    inferInstanceAs (Decidable (∀ found ∈ InsertKind.ofText? kind, found.WellNamed))
  | .remove _ => inferInstanceAs (Decidable True)

end Change

/-- A request that succeeded. -/
structure Exchange where
  sent : Json
  change : Change
  answer : Inserted
deriving DecidableEq, Inhabited

/-- Make changes one after the other, each to the graph of the answer before. -/
def session (graph : Json) : List Change → Attempt (List Exchange)
  | [] => .ok []
  | change :: rest => do
    let answer ← change.run graph
    return ⟨graph, change, answer⟩ :: (← session answer.graph rest)

/-! ## Elements in the graph that was sent back -/

theorem Node.kind_reread (index : Nat) (node : Node) : (node.reread index).kind = node.kind := by
  rw [kind, kind]
  exact Fields.text_congr (value?_reread (by decide) (by decide) index node)

theorem State.text_reread {key : String} (hkey : key ∉ ["id", "scope_dict", "nodes", "edges"])
    (place : Nat) (state : State) :
    (state.reread place).fields.text key = state.fields.text key := by
  simp only [List.mem_cons, List.not_mem_nil, or_false, not_or] at hkey
  obtain ⟨hid, hscopes, hnodes, hedges⟩ := hkey
  refine Fields.text_congr ?_
  rw [reread, Fields.value?_without_of_ne _ _ _ hedges,
    Fields.value?_without_of_ne _ _ _ hnodes, Fields.value?_eq_head?,
    values_numbered_of_ne hid hscopes, Fields.value?_eq_head?]

namespace Arena

variable {arena : Arena}

/-- Reading again leaves every element at its address. -/
theorem locateText_reread (text : String) :
    arena.reread.locateText text = arena.locateText text := by
  rw [← locateText_outline, outline_reread, locateText_outline]

/-- No type is changed when a graph is written and read. -/
theorem typeOf?_reread (element : Element) :
    arena.reread.typeOf? element = arena.typeOf? element := by
  have hstate : ∀ id place : Nat,
      (arena.reread.graphs[id]?.bind fun graph : Subgraph => graph.states[place]?) =
        (arena.graphs[id]?.bind fun graph : Subgraph => graph.states[place]?).map
          (State.reread place) := by
    intro id place
    rw [reread_getElem?]
    cases arena.graphs[id]? with
    | none => rfl
    | some graph => exact List.getElem?_mapIdx
  cases element with
  | state id place =>
      rw [typeOf?, hstate, Option.map_map, typeOf?]
      exact Option.map_congr fun state _ => state.text_reread (by decide) place
  | node id place index =>
      rw [typeOf?, hstate, Option.bind_map, typeOf?, Option.map_bind, Option.map_bind]
      refine Option.bind_congr fun state _ => ?_
      have hnode : (state.reread place).nodes[index]? =
          state.nodes[index]?.map (Node.reread index) := List.getElem?_mapIdx
      simp only [Function.comp_apply, hnode, Option.map_map]
      exact Option.map_congr fun node _ => node.kind_reread index
  | graph id => rfl
  | edge id place index => rfl

/-! ## What an answer brings -/

/-- The elements that an insertion has added are in the arena that its answer is read as, and the
addresses of the answer lead to them. An edge has none. -/
structure Brings (before after : Arena) (kind : InsertKind) (addresses : List String)
    (elements : List Element) : Prop where
  new : ∀ element ∈ elements, before.contains element = false
  typed : elements.map after.typeOf? = kind.types.map some
  listed : addresses = if elements.isEmpty then [noAddress] else elements.map Element.toText
  /-- The places in an address are signed words. -/
  located : ∀ element ∈ elements, element.FitsWords →
    ∃ holder, after.locateText element.toText = .ok ⟨element, holder⟩

/-- An insertion brings its elements, under the addresses it returns. -/
theorem Insertion.brings {request : InsertionRequest} {kind : InsertKind} {result : Arena}
    {elements : List Element} (h : arena.Insertion request kind result elements)
    (hformed : arena.WellFormed) (hresult : result.Legible) :
    arena.Brings result.reread kind
      (if elements.isEmpty then [noAddress] else elements.map Element.toText) elements where
  new := fun element helement => h.fresh helement
  typed := by
    rw [← h.typeOf? hformed]
    exact List.map_congr_left fun element _ => typeOf?_reread element
  listed := rfl
  located := fun element helement hfits => by
    refine ⟨result.holder? element, ?_⟩
    rw [locateText_reread, locateText_of_ok (Element.ofText_toText hfits)]
    exact hresult.formed.locate_live hfits (h.live hformed helement)

theorem Legible.removeAll (h : arena.Legible) {targets : List Element} {result : Arena}
    (hremoved : arena.removeAll targets = .ok result) : result.Legible := by
  induction targets generalizing arena with
  | nil =>
      cases hremoved
      exact h
  | cons element rest ih =>
      rw [Arena.removeAll, List.foldlM_cons] at hremoved
      obtain ⟨next, herased, hrest⟩ := bind_eq_ok.mp hremoved
      exact ih (h.effect (erase_effect herased) trivial trivial) hrest

end Arena

/-! ## Requests of a session -/

/-- What the editor relies on after a request: the graph of the answer is accepted, and an insertion
brings what was asked for. -/
def Exchange.Continues (exchange : Exchange) : Prop :=
  ∃ before after, readPayloadOrText exchange.sent = .ok before ∧
    Arena.ofJson exchange.answer.graph = .ok after ∧
    readPayloadOrText exchange.answer.graph = .ok after ∧
    ∀ kind parent start, exchange.change = .insert kind parent start →
      ∃ found elements, InsertKind.ofText? kind = some found ∧
        before.Brings after found exchange.answer.addresses elements

namespace Change

variable {change : Change} {graph : Json} {answer : Inserted}

/-- After a removal a session continues. -/
theorem removal_continues {addresses : List String}
    (hrun : (remove addresses).run graph = .ok answer) :
    (Exchange.mk graph (.remove addresses) answer).Continues := by
  obtain ⟨document, hrequest, hanswer⟩ := bind_eq_ok.mp hrun
  cases hanswer
  obtain ⟨before, hread, hrequest⟩ := bind_eq_ok.mp hrequest
  obtain ⟨result, hresult, hrequest⟩ := bind_eq_ok.mp hrequest
  cases hrequest
  obtain ⟨targets, _, hremoved⟩ := bind_eq_ok.mp (mapError_eq_ok.mp hresult)
  have hlegible := (Arena.legible_of_readPayloadOrText hread).removeAll hremoved
  exact ⟨before, result.reread, hread, hlegible.ofJson_toJson,
    hlegible.readPayloadOrText_toJson, fun _ _ _ hchange => by cases hchange⟩

/-- An insertion that succeeds is one of those that are possible in the graph that was sent. -/
theorem insertion_eq_ok {kind : String} {parent start : Option String}
    (hrun : (insert kind parent start).run graph = .ok answer) :
    ∃ before found result elements, readPayloadOrText graph = .ok before ∧
      InsertKind.ofText? kind = some found ∧
      before.Insertion ⟨graph, kind, parent, start⟩ found result elements ∧
      answer = ⟨result.toJson,
        if elements.isEmpty then [noAddress] else elements.map Element.toText⟩ := by
  obtain ⟨before, hread, hrun⟩ := bind_eq_ok.mp hrun
  have hformed := readPayloadOrText_wellFormed hread
  cases hkind : InsertKind.ofText? kind with
  | none => simp [hkind] at hrun
  | some found =>
      simp only [hkind] at hrun
      obtain ⟨⟨result, elements⟩, hinsert, hrun⟩ := bind_eq_ok.mp hrun
      cases hrun
      have hinsertion := Arena.insertKind_eq_ok hinsert
      -- Only live elements have an address, and the new ones are live.
      have haddresses : (elements.map fun element => (result.addressFor element).toText) =
          elements.map Element.toText := by
        refine List.map_congr_left fun element helement => ?_
        rw [Arena.addressFor, if_pos (hinsertion.live hformed helement), Element.toText]
      refine ⟨before, found, result, elements, hread, rfl, hinsertion, ?_⟩
      rw [haddresses, List.isEmpty_map]

/-- After the insertion of a well-named kind it continues. -/
theorem insertion_continues {kind : String} {parent start : Option String}
    (hnamed : (insert kind parent start).WellNamed)
    (hrun : (insert kind parent start).run graph = .ok answer) :
    (Exchange.mk graph (.insert kind parent start) answer).Continues := by
  obtain ⟨before, found, result, elements, hread, hkind, hinsertion, rfl⟩ := insertion_eq_ok hrun
  have hbefore := Arena.legible_of_readPayloadOrText hread
  have hlegible := hinsertion.legible hbefore (hnamed found hkind)
  refine ⟨before, result.reread, hread, hlegible.ofJson_toJson,
    hlegible.readPayloadOrText_toJson, ?_⟩
  rintro _ _ _ ⟨⟩
  exact ⟨found, elements, hkind, hinsertion.brings hbefore.formed hlegible⟩

/-- After any other insertion it does not. -/
theorem insertion_stops {kind : String} {parent start : Option String}
    (hnamed : ¬ (insert kind parent start).WellNamed)
    (hrun : (insert kind parent start).run graph = .ok answer) :
    ¬ (Exchange.mk graph (.insert kind parent start) answer).Continues := by
  obtain ⟨before, found, result, elements, hread, hkind, hinsertion, rfl⟩ := insertion_eq_ok hrun
  rintro ⟨_, after, _, hdecoded, _⟩
  refine hinsertion.refused (Arena.legible_of_readPayloadOrText hread) (fun hwell => hnamed ?_)
    after hdecoded
  rintro other hother
  rwa [← Option.some.inj (hkind.symm.trans hother)]

/-- What decides whether an editor can go on from an answer. -/
theorem continues_iff (hrun : change.run graph = .ok answer) :
    (Exchange.mk graph change answer).Continues ↔ change.WellNamed := by
  cases change with
  | insert kind parent start =>
      refine ⟨fun hcontinues => ?_, fun hnamed => insertion_continues hnamed hrun⟩
      by_contra hnamed
      exact insertion_stops hnamed hrun hcontinues
  | remove addresses => exact iff_of_true (removal_continues hrun) trivial

end Change

/-- An editor can go on from an answer of a session, with its graph and with the addresses of what
is new in it, unless it has asked for a library class with the name of the type of nodes with a
graph of their own. -/
theorem session_continues_iff {graph : Json} {changes : List Change} {exchanges : List Exchange}
    (hsession : session graph changes = .ok exchanges) :
    ∀ exchange ∈ exchanges, exchange.Continues ↔ exchange.change.WellNamed := by
  induction changes generalizing graph exchanges with
  | nil =>
      cases hsession
      simp
  | cons change rest ih =>
      obtain ⟨answer, hrun, hsession⟩ := bind_eq_ok.mp hsession
      obtain ⟨later, hlater, hsession⟩ := bind_eq_ok.mp hsession
      cases hsession
      exact List.forall_mem_cons.mpr ⟨Change.continues_iff hrun, ih hlater⟩

/-- A scope inside the nested graph, a graph nested beside it, the removal of the first one, a
library node and an edge. -/
def nestedChanges : List Change :=
  [.insert "Map" (some "1/0/-1/-1") none, .insert "NestedSDFG" (some "0/0/-1/-1") none,
    .remove ["0/0/0/-1"], .insert "LibraryNode|dace.libraries.blas.Gemm" (some "0/0/-1/-1") none,
    .insert "Edge" (some "0/0/2/-1") (some "0/0/0/-1")]

theorem nestedChanges_continue : ∃ exchanges,
    session Arena.nestedDocument nestedChanges = .ok exchanges ∧
    exchanges.map (·.answer.addresses) =
      [["1/0/0/-1", "1/0/1/-1"], ["0/0/2/-1"], [], ["0/0/2/-1"], ["NONE"]] ∧
    ∀ exchange ∈ exchanges, exchange.Continues ↔ exchange.change.WellNamed := by
  have hanswers : (session Arena.nestedDocument nestedChanges).map
      (·.map (·.answer.addresses)) =
        .ok [["1/0/0/-1", "1/0/1/-1"], ["0/0/2/-1"], [], ["0/0/2/-1"], ["NONE"]] := by
    decide +kernel
  cases hsession : session Arena.nestedDocument nestedChanges with
  | error failure => simp [hsession, Except.map] at hanswers
  | ok exchanges =>
      rw [hsession] at hanswers
      exact ⟨exchanges, rfl, Except.ok.inj hanswers, session_continues_iff hsession⟩

/-- A library class with the type of nodes that own graphs. -/
def misnamedChange : Change :=
  .insert "LibraryNode|x.NestedSDFG" (some "0/0/-1/-1") none

/-- Its insertion succeeds, and the editor cannot go on from the answer. -/
theorem misnamedChange_stops : ¬ misnamedChange.WellNamed ∧ ∃ answer,
    session Arena.nestedDocument [misnamedChange] =
      .ok [⟨Arena.nestedDocument, misnamedChange, answer⟩] ∧
    answer.addresses = ["0/0/2/-1"] ∧
    Arena.ofJson answer.graph = .error (.invalidGraph .nothingNested) ∧
    ¬ (Exchange.mk Arena.nestedDocument misnamedChange answer).Continues := by
  have hrun : (misnamedChange.run Arena.nestedDocument).map (fun answer =>
      (answer.addresses, (Arena.ofJson answer.graph))) =
        .ok (["0/0/2/-1"], .error (.invalidGraph .nothingNested)) := by
    decide +kernel
  cases hanswer : misnamedChange.run Arena.nestedDocument with
  | error failure => simp [hanswer, Except.map] at hrun
  | ok answer =>
      rw [hanswer] at hrun
      obtain ⟨haddresses, hrefused⟩ := Prod.mk.inj (Except.ok.inj hrun)
      refine ⟨by decide, answer, ?_, haddresses, hrefused, ?_⟩
      · rw [session, hanswer]
        rfl
      · rintro ⟨_, after, _, hdecoded, _⟩
        rw [hrefused] at hdecoded
        cases hdecoded

end DataflowEditor
