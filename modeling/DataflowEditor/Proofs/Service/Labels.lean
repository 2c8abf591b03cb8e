import DataflowEditor.Proofs.Graph.Restoring
import DataflowEditor.Proofs.Service.Removal
import DataflowEditor.Proofs.Service.Session

/-! # Labels of new states

A new state is labelled with the number of states that are there already. A removal may take any of
them, so that this number may come up again while a state with its label is still there. Here it is
told what becomes of the labels in a session that puts states into one graph and takes states out of
it, and when they stay apart.
-/

namespace DataflowEditor

/-- The label of a state that is put behind so many others. -/
def stateLabel (count : Nat) : String :=
  "state_" ++ Text.decimal count

/-- Different counts give different labels. -/
theorem stateLabel_injective : Function.Injective stateLabel := by
  intro first second h
  have hlist := congrArg String.toList h
  rw [stateLabel, stateLabel, String.toList_append, String.toList_append] at hlist
  exact Text.decimal_injective (String.toList_inj.mp (List.append_cancel_left hlist))

/-- What a request does to the states of a graph. -/
inductive StateChange
  | insert
  | remove (places : List Nat)
deriving DecidableEq

namespace StateChange

/-- The labels of the states after a change, given those before it. -/
def labels (before : List String) : StateChange → List String
  | insert => before ++ [stateLabel before.length]
  | remove places => keep (fun place => decide (place ∈ places)) before

/-- A removal takes all states from some place on. -/
def FromBack (count : Nat) : StateChange → Prop
  | insert => True
  | remove places => ∃ left ≤ count, ∀ place < count, place ∈ places ↔ left ≤ place

/-- Removing states never makes two labels equal. -/
theorem nodup_labels_remove {before : List String} (h : before.Nodup) (places : List Nat) :
    ((remove places).labels before).Nodup := by
  rw [labels]
  exact (keep_sublist _ before).nodup h

/-- Inserting one keeps the labels apart exactly when that for the count is free. -/
theorem nodup_labels_insert {before : List String} (h : before.Nodup) :
    (insert.labels before).Nodup ↔ stateLabel before.length ∉ before := by
  rw [labels, List.nodup_append_comm, List.singleton_append, List.nodup_cons]
  exact and_iff_left h

/-- As long as states go from the back, they are numbered without a gap. -/
theorem labels_range {change : StateChange} {count : Nat} (h : change.FromBack count) :
    ∃ after, change.labels ((List.range count).map stateLabel) =
      (List.range after).map stateLabel := by
  cases change with
  | insert =>
      refine ⟨count + 1, ?_⟩
      rw [labels, List.length_map, List.length_range, List.range_succ, List.map_append,
        List.map_singleton]
  | remove places =>
      obtain ⟨left, hleft, hplaces⟩ := h
      refine ⟨left, ?_⟩
      rw [labels, keep_eq_take (by simpa using hleft) fun place hplace => ?_, ← List.map_take,
        List.take_range, Nat.min_eq_left hleft]
      exact decide_eq_decide.mpr (hplaces place (by simpa using hplace))

end StateChange

/-! ## The states of a graph -/

namespace Arena

variable {arena : Arena} {id : Nat}

def stateLabels? (arena : Arena) (id : Nat) : Option (List String) :=
  arena.graphs[id]?.map fun graph => graph.states.map State.label

/-- The place in a graph of the state that an address leads to. -/
def statePlace? (arena : Arena) (id : Nat) (address : String) : Option Nat :=
  match arena.locateText address with
  | .ok ⟨.state found place, _⟩ => if found = id then some place else none
  | _ => none

/-- What a change does to the states of a graph, if it puts a state there or takes states out. -/
def stateChange? (arena : Arena) (id : Nat) : Change → Option StateChange
  | .insert kind parent _ =>
    if InsertKind.ofText? kind = some .state ∧
        (arena.locateParent parent).bind arena.stateContainer = .ok id then some .insert
    else none
  | .remove addresses => (addresses.mapM (arena.statePlace? id)).map .remove

theorem statePlace?_eq_some {address : String} {place : Nat}
    (h : arena.statePlace? id address = some place) :
    ∃ holder, arena.locateText address = .ok ⟨.state id place, holder⟩ := by
  unfold statePlace? at h
  split at h
  next found other holder hlocated =>
    split at h
    next hid =>
      subst hid
      obtain rfl := Option.some.inj h
      exact ⟨holder, hlocated⟩
    next => cases h
  next => cases h

theorem removalTargets_of_places {addresses : List String} {places : List Nat}
    (h : addresses.mapM (arena.statePlace? id) = some places) :
    addresses.mapM arena.removalTarget = .ok (places.map (Element.state id)) ∧
      ∀ place ∈ places, ∃ address holder,
        arena.locateText address = .ok ⟨.state id place, holder⟩ := by
  induction addresses generalizing places with
  | nil =>
      obtain rfl := Option.some.inj h
      exact ⟨rfl, by simp⟩
  | cons address rest ih =>
      rw [List.mapM_cons] at h
      obtain ⟨place, hplace, h⟩ := Option.bind_eq_some_iff.mp h
      obtain ⟨others, hothers, h⟩ := Option.bind_eq_some_iff.mp h
      obtain rfl := Option.some.inj h
      obtain ⟨htargets, hlocated⟩ := ih hothers
      obtain ⟨holder, hfound⟩ := statePlace?_eq_some hplace
      have htarget : arena.removalTarget address = .ok (.state id place) := by
        rw [removalTarget, hfound]
        rfl
      refine ⟨?_, List.forall_mem_cons.mpr ⟨⟨address, holder, hfound⟩, hlocated⟩⟩
      rw [List.mapM_cons, htarget, htargets]
      rfl

theorem map_label_mapIdx {change : Nat → State → State}
    (h : ∀ place state, (change place state).label = state.label) (states : List State) :
    (states.mapIdx change).map State.label = states.map State.label := by
  apply List.ext_getElem?
  intro place
  rw [List.getElem?_map, List.getElem?_mapIdx, List.getElem?_map, Option.map_map]
  exact Option.map_congr fun state _ => h place state

theorem stateLabels?_reread : arena.reread.stateLabels? id = arena.stateLabels? id := by
  rw [stateLabels?, reread_getElem?, stateLabels?, Option.map_map]
  exact Option.map_congr fun graph _ =>
    map_label_mapIdx (State.text_reread (by decide)) graph.states

theorem stateLabels?_pushState {graph : Subgraph} (hgraph : arena.graphs[id]? = some graph)
    (state : State) : (arena.modifyGraph id (·.pushState state)).stateLabels? id =
      some (graph.states.map State.label ++ [state.label]) := by
  rw [stateLabels?, modifyGraph_getElem?, hgraph, if_pos rfl, Option.map_some, Option.map_some,
    Subgraph.pushState, List.map_append, List.map_singleton]

/-- States that are taken out of a graph leave the labels of the others alone. -/
theorem WellFormed.stateLabels?_pruned (h : arena.WellFormed) {gone : Element → Bool}
    (hgone : ∀ element, gone element = true → element.graphIndex = id) {before : List String}
    (hbefore : arena.stateLabels? id = some before) :
    (arena.pruned gone).renumber.stateLabels? id =
      some (keep (fun place => gone (.state id place)) before) := by
  obtain ⟨graph, hgraph, rfl⟩ := Option.map_eq_some_iff.mp hbefore
  obtain ⟨met, hsublist, hreach⟩ := h.reaches_pruned gone
  obtain ⟨hmet, hname⟩ := h.keeps_name hsublist hreach (List.getElem?_eq_some_iff.mp hgraph).1
    fun element helement => (hgone element helement).ge
  have hpruned : (arena.pruned gone).graphs[id]? = some (graph.pruned gone id) := by
    rw [pruned_getElem?, hgraph, Option.map_some]
  obtain ⟨owner, hrenamed⟩ := hreach.renumber_renamed id hmet _ hpruned
  simp only [hname] at hrenamed
  have hkept : ((graph.pruned gone id).states.map State.label) =
      keep (fun place => gone (.state id place)) (graph.states.map State.label) := by
    rw [Subgraph.pruned, map_keep]
    have hlabel : ∀ place (state : State), (state.pruned gone id place).label = state.label :=
      fun _ _ => rfl
    rw [map_label_mapIdx hlabel]
  rw [stateLabels?, hrenamed, Option.map_some, ← hkept, renameNested]
  simp [Function.comp_def, State.label]

/-- A removal of states by their addresses. -/
theorem WellFormed.stateLabels?_removed (h : arena.WellFormed) {addresses : List String}
    {places : List Nat} (hplaces : addresses.mapM (arena.statePlace? id) = some places)
    {before : List String} (hbefore : arena.stateLabels? id = some before) {result : Arena}
    (hresult : arena.removeAddresses addresses = .ok result) :
    result.stateLabels? id = some ((StateChange.remove places).labels before) := by
  obtain ⟨htargets, hlocated⟩ := removalTargets_of_places hplaces
  have hstates : ∀ element, element ∈ places.map (Element.state id) ↔
      ∃ place ∈ places, element = .state id place := by
    intro element
    simp only [List.mem_map, eq_comm]
  obtain ⟨hremoved, _⟩ := h.removeAll_eq
    (fun element helement => by
      obtain ⟨place, hplace, rfl⟩ := (hstates element).mp (mem_sorted.mp helement)
      obtain ⟨address, holder, hfound⟩ := hlocated place hplace
      exact (h.located_live hfound).1)
    (fun element helement id' hgraph => by
      obtain ⟨place, _, rfl⟩ := (hstates element).mp (mem_sorted.mp helement)
      cases hgraph)
    (pairwise_removedBefore (places.map (Element.state id)))
  rw [removeAddresses, htargets, ok_bind, hremoved] at hresult
  obtain rfl := Except.ok.inj hresult
  rw [h.stateLabels?_pruned (fun element helement => ?_) hbefore, StateChange.labels]
  · simp
  · obtain ⟨place, _, rfl⟩ := (hstates element).mp (mem_sorted.mp (of_decide_eq_true helement))
    rfl

end Arena

/-! ## Requests -/

theorem toOption_eq_some {ε α : Type} {outcome : Except ε α} {value : α} :
    outcome.toOption = some value ↔ outcome = .ok value := by
  cases outcome <;> simp [Except.toOption]

/-- The labels of the states of a graph in a document that is sent or answered. -/
def labelsIn (id : Nat) (payload : Json) : Option (List String) :=
  (readPayloadOrText payload).toOption.bind fun arena => arena.stateLabels? id

/-- What the request does to the states of a graph, if it puts a state there or takes states out. -/
def Exchange.stateChange? (id : Nat) (exchange : Exchange) : Option StateChange :=
  (readPayloadOrText exchange.sent).toOption.bind fun arena =>
    arena.stateChange? id exchange.change

theorem labelsIn_toJson {arena : Arena} (h : arena.Legible) (id : Nat) :
    labelsIn id arena.toJson = arena.stateLabels? id := by
  rw [labelsIn, h.readPayloadOrText_toJson, Except.toOption, Option.bind_some,
    Arena.stateLabels?_reread]

/-- An answer holds the labels that the change makes of those before. -/
theorem Change.labelsIn_answer {change : Change} {graph : Json} {answer : Inserted} {id : Nat}
    (hrun : change.run graph = .ok answer) {done : StateChange}
    (hdone : Exchange.stateChange? id ⟨graph, change, answer⟩ = some done) {before : List String}
    (hbefore : labelsIn id graph = some before) :
    labelsIn id answer.graph = some (done.labels before) := by
  obtain ⟨arena, hread, hdone⟩ := Option.bind_eq_some_iff.mp hdone
  rw [labelsIn, hread, Option.bind_some] at hbefore
  have hread := toOption_eq_some.mp hread
  have hlegible := Arena.legible_of_readPayloadOrText hread
  cases change with
  | insert kind parent start =>
      rw [Arena.stateChange?] at hdone
      split at hdone
      next hstate =>
        obtain ⟨hkind, hcontainer⟩ := hstate
        obtain rfl := Option.some.inj hdone
        obtain ⟨_, found, result, elements, hagain, hfound, hinsertion, rfl⟩ :=
          insertion_eq_ok hrun
        obtain rfl := Except.ok.inj (hread.symm.trans hagain)
        obtain rfl := Option.some.inj (hkind.symm.trans hfound)
        -- The answer is read again with the labels of the arena that was written.
        rw [labelsIn_toJson (hinsertion.legible hlegible (by decide))]
        cases hinsertion with
        | @state element _ graph hparent hinto hgraph =>
            rw [hparent] at hcontainer
            obtain rfl := Except.ok.inj (hinto.symm.trans hcontainer)
            rw [Arena.stateLabels?, hgraph, Option.map_some] at hbefore
            obtain rfl := Option.some.inj hbefore
            rw [Arena.stateLabels?_pushState hgraph, StateChange.labels, List.length_map]
            rfl
      next => cases hdone
  | remove addresses =>
      obtain ⟨places, hplaces, hdone⟩ := Option.map_eq_some_iff.mp hdone
      subst hdone
      obtain ⟨document, hrequest, hanswer⟩ := bind_eq_ok.mp hrun
      cases hanswer
      obtain ⟨_, hagain, hrequest⟩ := bind_eq_ok.mp hrequest
      obtain rfl := Except.ok.inj (hread.symm.trans hagain)
      obtain ⟨result, hresult, hrequest⟩ := bind_eq_ok.mp hrequest
      cases hrequest
      have hremoved := mapError_eq_ok.mp hresult
      obtain ⟨targets, _, hall⟩ := bind_eq_ok.mp hremoved
      rw [labelsIn_toJson (hlegible.removeAll hall)]
      exact hlegible.formed.stateLabels?_removed hplaces hbefore hremoved

/-! ## Sessions -/

/-- Requests one after the other, each with the labels in the graph that is sent. -/
inductive Labelled (id : Nat) : List String → List Exchange → Prop
  | done {before : List String} : Labelled id before []
  | next {before : List String} {exchange : Exchange} {change : StateChange}
      {rest : List Exchange} :
      exchange.stateChange? id = some change → labelsIn id exchange.sent = some before →
      labelsIn id exchange.answer.graph = some (change.labels before) →
      Labelled id (change.labels before) rest → Labelled id before (exchange :: rest)

/-- In a session that changes the states of a graph only, the labels follow the changes. -/
theorem session_labelled {id : Nat} {graph : Json} {changes : List Change}
    {exchanges : List Exchange} (hsession : session graph changes = .ok exchanges)
    {before : List String} (hbefore : labelsIn id graph = some before)
    (hstates : ∀ exchange ∈ exchanges, (exchange.stateChange? id).isSome = true) :
    Labelled id before exchanges := by
  induction changes generalizing graph exchanges before with
  | nil =>
      cases hsession
      exact .done
  | cons change rest ih =>
      obtain ⟨answer, hrun, hsession⟩ := bind_eq_ok.mp hsession
      obtain ⟨later, hlater, hsession⟩ := bind_eq_ok.mp hsession
      cases hsession
      obtain ⟨hfirst, hrest⟩ := List.forall_mem_cons.mp hstates
      obtain ⟨done, hdone⟩ := Option.isSome_iff_exists.mp hfirst
      have hafter := Change.labelsIn_answer hrun hdone hbefore
      exact .next hdone hbefore hafter (ih hlater hafter hrest)

namespace Labelled

variable {id : Nat} {before : List String} {exchanges : List Exchange}

/-- Every answer holds the labels that the change makes of those in the graph that was sent. -/
theorem followed (h : Labelled id before exchanges) :
    ∀ exchange ∈ exchanges, ∃ change before, exchange.stateChange? id = some change ∧
      labelsIn id exchange.sent = some before ∧
      labelsIn id exchange.answer.graph = some (change.labels before) := by
  induction h with
  | done => simp
  | next hchange hsent hanswer _ ih =>
      exact List.forall_mem_cons.mpr ⟨⟨_, _, hchange, hsent, hanswer⟩, ih⟩

/-- Labels stay apart as long as no state is put in whose label is taken, and no longer. -/
theorem distinct_iff (h : Labelled id before exchanges) (hbefore : before.Nodup) :
    (∀ exchange ∈ exchanges, ∀ labels,
        labelsIn id exchange.answer.graph = some labels → labels.Nodup) ↔
      ∀ exchange ∈ exchanges, exchange.stateChange? id = some .insert → ∀ before,
        labelsIn id exchange.sent = some before → stateLabel before.length ∉ before := by
  induction h with
  | done => simp
  | @next before exchange change rest hchange hsent hanswer _ ih =>
      have hfirst : (∀ labels, labelsIn id exchange.answer.graph = some labels → labels.Nodup) ↔
          (change.labels before).Nodup := by simp [hanswer]
      have hlast : (exchange.stateChange? id = some .insert → ∀ before,
          labelsIn id exchange.sent = some before → stateLabel before.length ∉ before) ↔
            (change = .insert → stateLabel before.length ∉ before) := by simp [hchange, hsent]
      have hfresh : (change.labels before).Nodup ↔
          (change = .insert → stateLabel before.length ∉ before) := by
        cases change with
        | insert => simp [StateChange.nodup_labels_insert hbefore]
        | remove places => simp [StateChange.nodup_labels_remove hbefore places]
      rw [List.forall_mem_cons, List.forall_mem_cons, hfirst, hlast, ← hfresh]
      exact and_congr_right ih

/-- If states are taken out from the back only, the states are numbered without a gap. -/
theorem numbered (h : Labelled id before exchanges) {count : Nat}
    (hbefore : before = (List.range count).map stateLabel)
    (hback : ∀ exchange ∈ exchanges, ∀ change before, exchange.stateChange? id = some change →
      labelsIn id exchange.sent = some before → change.FromBack before.length) :
    ∀ exchange ∈ exchanges, ∃ count, labelsIn id exchange.answer.graph =
      some ((List.range count).map stateLabel) := by
  induction h generalizing count with
  | done => simp
  | next hchange hsent hanswer _ ih =>
      obtain ⟨hfirst, hrest⟩ := List.forall_mem_cons.mp hback
      subst hbefore
      have hfrom := hfirst _ _ hchange hsent
      rw [List.length_map, List.length_range] at hfrom
      obtain ⟨after, hafter⟩ := StateChange.labels_range hfrom
      exact List.forall_mem_cons.mpr ⟨⟨after, hafter ▸ hanswer⟩, ih hafter hrest⟩

end Labelled

/-- What becomes of the labels of the states of a graph in a session. -/
structure TracksLabels (id : Nat) (exchanges : List Exchange) : Prop where
  /-- Every answer holds the labels that the change makes of those in the graph that was sent. -/
  followed : ∀ exchange ∈ exchanges, ∃ change before, exchange.stateChange? id = some change ∧
    labelsIn id exchange.sent = some before ∧
    labelsIn id exchange.answer.graph = some (change.labels before)
  /-- Labels stay apart as long as no state is put in whose label is taken, and no longer. -/
  distinct : (∀ exchange ∈ exchanges, ∀ labels,
      labelsIn id exchange.answer.graph = some labels → labels.Nodup) ↔
    ∀ exchange ∈ exchanges, exchange.stateChange? id = some .insert → ∀ before,
      labelsIn id exchange.sent = some before → stateLabel before.length ∉ before
  /-- If states are taken out from the back only, the states are numbered without a gap, and their
  labels stay apart. -/
  numbered : (∀ exchange ∈ exchanges, ∀ change before, exchange.stateChange? id = some change →
      labelsIn id exchange.sent = some before → change.FromBack before.length) →
    ∀ exchange ∈ exchanges, ∃ count, labelsIn id exchange.answer.graph =
      some ((List.range count).map stateLabel) ∧ ((List.range count).map stateLabel).Nodup

/-- In a session that starts with a graph without states, and puts states into it and takes states
out of it, labels stay apart exactly as long as no new state gets one that is taken. -/
theorem session_tracksLabels {id : Nat} {graph : Json} {changes : List Change}
    {exchanges : List Exchange} (hsession : session graph changes = .ok exchanges)
    (hempty : labelsIn id graph = some [])
    (hstates : ∀ exchange ∈ exchanges, (exchange.stateChange? id).isSome = true) :
    TracksLabels id exchanges := by
  have hlabelled := session_labelled hsession hempty hstates
  refine ⟨hlabelled.followed, hlabelled.distinct_iff List.nodup_nil, fun hback => ?_⟩
  have hstart : [] = (List.range 0).map stateLabel := rfl
  intro exchange hexchange
  obtain ⟨count, hcount⟩ := hlabelled.numbered hstart hback exchange hexchange
  exact ⟨count, hcount, List.nodup_range.map stateLabel_injective⟩

/-- A graph with a node that owns a graph without states. -/
def hollowDocument : Json :=
  .obj [("nodes", .arr [.obj [("nodes", .arr [.obj [("type", .str "NestedSDFG"),
    ("attributes", .obj [("sdfg", .obj [])])]])]])]

/-- States are put into the nested graph by its owner and by itself. The second one is taken out,
which is named twice, and put in again. -/
def hollowChanges : List Change :=
  [.insert "SDFGState" (some "0/0/0/-1") none, .insert "SDFGState" (some "1/-1/-1/-1") none,
    .remove ["1/1/-1/-1", "1/1/-1/-1"], .insert "SDFGState" (some "1/-1/-1/-1") none]

theorem hollowChanges_tracksLabels : ∃ exchanges,
    session hollowDocument hollowChanges = .ok exchanges ∧
    labelsIn 1 hollowDocument = some [] ∧
    exchanges.map (fun exchange => (exchange.stateChange? 1, labelsIn 1 exchange.answer.graph)) =
      [(some .insert, some ["state_0"]), (some .insert, some ["state_0", "state_1"]),
        (some (.remove [1, 1]), some ["state_0"]),
        (some .insert, some ["state_0", "state_1"])] ∧
    TracksLabels 1 exchanges := by
  have hempty : labelsIn 1 hollowDocument = some [] := by decide +kernel
  have hanswers : (session hollowDocument hollowChanges).map (·.map fun exchange =>
      (exchange.stateChange? 1, labelsIn 1 exchange.answer.graph)) =
        .ok [(some .insert, some ["state_0"]), (some .insert, some ["state_0", "state_1"]),
          (some (.remove [1, 1]), some ["state_0"]),
          (some .insert, some ["state_0", "state_1"])] := by
    decide +kernel
  cases hsession : session hollowDocument hollowChanges with
  | error failure => simp [hsession, Except.map] at hanswers
  | ok exchanges =>
      rw [hsession] at hanswers
      have hanswers := Except.ok.inj hanswers
      have hchanges : exchanges.map (Exchange.stateChange? 1) =
          [some .insert, some .insert, some (.remove [1, 1]), some .insert] := by
        have hfirst := congrArg (List.map Prod.fst) hanswers
        rwa [List.map_map] at hfirst
      refine ⟨exchanges, rfl, hempty, hanswers, session_tracksLabels hsession hempty ?_⟩
      intro exchange hexchange
      have hmem : exchange.stateChange? 1 ∈ exchanges.map (Exchange.stateChange? 1) :=
        List.mem_map_of_mem hexchange
      rw [hchanges] at hmem
      have hall : ∀ change ∈ [some StateChange.insert, some .insert, some (.remove [1, 1]),
          some .insert], change.isSome = true := by
        decide
      exact hall _ hmem

/-- Two states are put in, the first one is taken out, and another one is put in. -/
def renewedChanges : List Change :=
  [.insert "SDFGState" none none, .insert "SDFGState" none none, .remove ["0/0/-1/-1"],
    .insert "SDFGState" none none]

/-- The last state gets the label of the one that has stayed. -/
theorem renewedChanges_repeat : ∃ exchanges,
    session (.obj []) renewedChanges = .ok exchanges ∧
    labelsIn 0 (.obj []) = some [] ∧
    exchanges.map (fun exchange => (exchange.stateChange? 0, labelsIn 0 exchange.answer.graph)) =
      [(some .insert, some ["state_0"]), (some .insert, some ["state_0", "state_1"]),
        (some (.remove [0]), some ["state_1"]), (some .insert, some ["state_1", "state_1"])] := by
  have hanswers : (session (.obj []) renewedChanges).map (·.map fun exchange =>
      (exchange.stateChange? 0, labelsIn 0 exchange.answer.graph)) =
        .ok [(some .insert, some ["state_0"]), (some .insert, some ["state_0", "state_1"]),
          (some (.remove [0]), some ["state_1"]), (some .insert, some ["state_1", "state_1"])] := by
    decide +kernel
  cases hsession : session (.obj []) renewedChanges with
  | error failure => simp [hsession, Except.map] at hanswers
  | ok exchanges =>
      rw [hsession] at hanswers
      exact ⟨exchanges, rfl, by decide +kernel, Except.ok.inj hanswers⟩

end DataflowEditor
