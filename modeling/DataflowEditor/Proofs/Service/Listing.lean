import DataflowEditor.Proofs.Graph.Selecting
import DataflowEditor.Proofs.Toolkit.Dialogue
import DataflowEditor.Service.Transformation

/-! # Listing transformations for a selection

A listing plans its selection, asks for what applies anywhere in the graph, and asks once more only
if the plan has a subgraph to ask about. The warning tells that the selection touches several
graphs, and in that case there is nothing more to ask.
-/

namespace DataflowEditor

open Operation

namespace ListingRequest

variable {σ : Type} {request : ListingRequest} {options : WriteOptions} {arena : Arena}
  {selection : Selection} {answerer : Dialogue.Answerer σ} {state : σ} {found : Findings}

/-- What a listing does once its selection is planned and the matches in the graph are found. -/
structure Follows (request : ListingRequest) (options : WriteOptions) (arena : Arena)
    (selection : Selection) (answerer : Dialogue.Answerer σ) (state : σ) (found : Findings) :
    Prop where
  /-- There is a second call exactly if there is a subgraph to ask about. -/
  calls : (request.run options).run.calls answerer state =
    .findMatches arena.toJson request.permissive options ::
      selection.askable.toList.map fun subgraph => .findForSubgraph arena.toJson subgraph options
  unasked : selection.askable = none → ((request.run options).run.run answerer state).1 =
    .ok ⟨found, if selection.touchesSeveral then some severalGraphsWarning else none⟩
  asked : ∀ subgraph, selection.askable = some subgraph →
    ((request.run options).run.run answerer state).1 =
      ((answerer (.findForSubgraph arena.toJson subgraph options)
          (answerer (.findMatches arena.toJson request.permissive options) state).2).1.mapError
        (toolkitFailure listFailedMessage)).map fun more => ⟨found.extend more, none⟩
  warned : ∀ listing, ((request.run options).run.run answerer state).1 = .ok listing →
    listing.warning = if selection.touchesSeveral then some severalGraphsWarning else none

/-- What is left to do after the matches in the graph are found. -/
def finish (selection : Selection) (graph : Json) (found : Findings) (options : WriteOptions) :
    Operation Listing :=
  if selection.touchesSeveral then return ⟨found, some severalGraphsWarning⟩
  else match selection.askable with
    | none => return ⟨found, none⟩
    | some subgraph => do
      let more ← ask (.findForSubgraph graph subgraph options) listFailedMessage
      return ⟨found.extend more, none⟩

/-- A listing plans the selection, asks for all matches, and then for those of the subgraph. -/
theorem run_eq (request : ListingRequest) (options : WriteOptions) :
    request.run options = ofAttempt (readPayloadOrText request.graph) >>= fun arena =>
      onGraph (Selection.ofDescriptors arena request.selected) listFailedMessage >>=
        fun selection =>
          ask (.findMatches arena.toJson request.permissive options) listFailedMessage >>=
            fun found => finish selection arena.toJson found options :=
  rfl

section Finish

variable (answerer : Dialogue.Answerer σ) (state : σ) (graph : Json) (found : Findings)
  (options : WriteOptions)

theorem finish_unasked (h : selection.askable = none) :
    Runs answerer (finish selection graph found options) state []
      (.ok ⟨found, if selection.touchesSeveral then some severalGraphsWarning else none⟩)
      state := by
  rw [finish, h]
  cases selection.touchesSeveral <;> exact ⟨rfl, rfl⟩

theorem finish_asked {subgraph : SelectedSubgraph} (h : selection.askable = some subgraph)
    (hsingle : selection.touchesSeveral = false) :
    Runs answerer (finish selection graph found options) state
      [⟨.findForSubgraph graph subgraph options,
        (answerer (.findForSubgraph graph subgraph options) state).1⟩]
      (((answerer (.findForSubgraph graph subgraph options) state).1.mapError
        (toolkitFailure listFailedMessage)).map fun more => ⟨found.extend more, none⟩)
      (answerer (.findForSubgraph graph subgraph options) state).2 := by
  have hask := runs_ask answerer state listFailedMessage (.findForSubgraph graph subgraph options)
  rw [finish, h, hsingle]
  generalize (answerer (.findForSubgraph graph subgraph options) state).1 = answer at hask ⊢
  cases answer with
  | error fault => exact hask.bind_error
  | ok more => exact hask.bind_ok ⟨rfl, rfl⟩

end Finish

/-- A listing begins like any other until the matches in the graph are found. -/
theorem runs_run {rest : List Answered} {outcome : Attempt Listing} {last : σ}
    (hread : readPayloadOrText request.graph = .ok arena)
    (hplan : Selection.ofDescriptors arena request.selected = .ok selection)
    (hfound : (answerer (.findMatches arena.toJson request.permissive options) state).1 = .ok found)
    (hrest : Runs answerer (finish selection arena.toJson found options)
      (answerer (.findMatches arena.toJson request.permissive options) state).2 rest outcome last) :
    Runs answerer (request.run options) state
      (⟨.findMatches arena.toJson request.permissive options, .ok found⟩ :: rest) outcome last := by
  have hask := runs_ask answerer state listFailedMessage
    (.findMatches arena.toJson request.permissive options)
  rw [hfound] at hask
  rw [run_eq, hread]
  exact (runs_ofAttempt answerer state (.ok arena)).bind_ok
    ((runs_onGraph_ok answerer state listFailedMessage hplan).bind_ok (hask.bind_ok hrest))

/-- A listing follows its plan. -/
theorem follows (hread : readPayloadOrText request.graph = .ok arena)
    (hplan : Selection.ofDescriptors arena request.selected = .ok selection)
    (hfound : (answerer (.findMatches arena.toJson request.permissive options) state).1 = .ok found)
    (hexclusive : selection.touchesSeveral = true → selection.askable = none) :
    request.Follows options arena selection answerer state found := by
  cases haskable : selection.askable with
  | none =>
      have hruns := runs_run hread hplan hfound (finish_unasked answerer _ _ _ _ haskable)
      refine ⟨?_, fun _ => by rw [hruns.ends], by simp [haskable], fun listing hends => ?_⟩
      · rw [← Dialogue.trace_calls, hruns.trace, haskable]
        rfl
      · rw [hruns.ends] at hends
        cases hends
        rfl
  | some subgraph =>
      have hsingle : selection.touchesSeveral = false := by
        by_contra hseveral
        simp [hexclusive (Bool.not_eq_false _ ▸ hseveral)] at haskable
      have hruns := runs_run hread hplan hfound
        (finish_asked answerer _ _ _ _ haskable hsingle)
      refine ⟨?_, by simp [haskable], fun other hother => ?_, fun listing hends => ?_⟩
      · rw [← Dialogue.trace_calls, hruns.trace, haskable]
        rfl
      · obtain rfl := Option.some.inj (haskable.symm.trans hother)
        rw [hruns.ends]
      · rw [hruns.ends] at hends
        obtain ⟨more, _, rfl⟩ := map_eq_ok.mp hends
        simp [hsingle]

end ListingRequest

/-- A selection is planned as its descriptors ask, and listings go by the plan. -/
structure Arena.SelectsExactly (arena : Arena) (selected : List Json) : Prop
    extends arena.PlansExactly selected where
  listed : ∀ (request : ListingRequest) (options : WriteOptions) (selection : Selection),
    request.selected = selected → readPayloadOrText request.graph = .ok arena →
      Selection.ofDescriptors arena selected = .ok selection →
        ∀ {σ : Type} (answerer : Dialogue.Answerer σ) (state : σ) (found : Findings),
          (answerer (.findMatches arena.toJson request.permissive options) state).1 = .ok found →
            request.Follows options arena selection answerer state found

namespace Arena

variable {arena : Arena}

/-- On a well-formed arena every selection is planned, asked for and warned of as specified. -/
theorem WellFormed.selectsExactly (h : arena.WellFormed) (selected : List Json) :
    arena.SelectsExactly selected where
  toPlansExactly := h.plansExactly selected
  listed := by
    rintro request options selection rfl hread hplan σ answerer state found hfound
    refine ListingRequest.follows hread hplan hfound fun hseveral => ?_
    rw [Selection.askable, (h.plansExactly _).several selection hplan hseveral, Option.filter_none]

/-- In every arena that edits of a decoded graph lead to, every selection is planned exactly. -/
theorem reachable_selectsExactly {document : Json} (hdocument : ofJson document = .ok arena)
    (edits : List Edit) (selected : List Json) :
    (arena.afterEdits edits).SelectsExactly selected :=
  ((ofJson_wellFormed hdocument).afterEdits edits).selectsExactly selected

/-- Two nodes of one state, the first of them twice, and an edge of the same graph. -/
def pickedNodes : List Json :=
  [.obj [("type", .str "node"), ("sdfgId", .nat 0), ("state_id", .nat 0), ("id", .nat 1)],
    .obj [("type", .str "node"), ("sdfg_id", .nat 0), ("state_id", .nat 0), ("id", .nat 0)],
    .obj [("id", .nat 1), ("type", .str "node"), ("sdfg_id", .nat 0), ("state_id", .nat 0)],
    .obj [("type", .str "edge"), ("sdfg_id", .nat 0)]]

theorem pickedNodes_selectsExactly : ofJson nestedDocument = .ok nestedArena ∧
    (nestedArena.afterEdits nestedEdits).SelectsExactly pickedNodes ∧
      Selection.ofDescriptors (nestedArena.afterEdits nestedEdits) pickedNodes =
        .ok ⟨[0], some (.nodes 0 0 [1, 0])⟩ :=
  ⟨ofJson_nestedDocument, reachable_selectsExactly ofJson_nestedDocument nestedEdits pickedNodes,
    by decide⟩

end Arena

end DataflowEditor
