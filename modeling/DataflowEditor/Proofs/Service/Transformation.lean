import DataflowEditor.Proofs.Graph.Containment
import DataflowEditor.Proofs.Graph.Rereading
import DataflowEditor.Proofs.Toolkit.Dialogue
import DataflowEditor.Service.Transformation

/-! # Applying transformations in turn

A batch sends the toolkit one transformation after the other, each with the graph that came back
from the one before. Every graph is decoded before the next transformation is sent with it, and that
transformation has to be for a graph that is there. The first step that fails ends the batch.
-/

namespace DataflowEditor

/-- One call of a run that applies transformations, with what came back. -/
structure Application where
  payload : Json
  transformation : Json
  answer : Except ToolkitFault Json

def Application.answered (options : WriteOptions) (application : Application) : Answered :=
  ⟨.apply application.payload application.transformation options, application.answer⟩

/-- The payload holds the graph that the transformation is for. -/
def Application.Aimed (application : Application) : Prop :=
  ∃ arena target, Arena.ofJson application.payload = .ok arena ∧
    targetGraph application.transformation = .ok target ∧ arena.contains (.graph target) = true

/-- The calls of a run that is to apply transformations in turn, beginning with a graph, and the
outcome that it has. -/
structure Conducted (start : Except GraphError Json) (transformations : List Json)
    (applications : List Application) (outcome : Attempt Json) : Prop where
  /-- The transformations are sent in order, none twice and none left out. -/
  carried : applications.map Application.transformation <+: transformations
  first : ∀ application ∈ applications.head?, start = .ok application.payload
  /-- A graph is passed on as it came back. Nothing comes after a call that failed. -/
  passedOn : applications.IsChain fun before after => before.answer = .ok after.payload
  aimed : ∀ application ∈ applications, application.Aimed
  settled : ∀ graph, outcome = .ok graph ↔ applications.length = transformations.length ∧
    ∃ application ∈ applications.getLast?, application.answer = .ok graph

namespace Conducted

variable {start : Except GraphError Json} {transformation payload graph : Json}
  {rest : List Json} {applications : List Application} {outcome : Attempt Json}
  {failure : Failure} {answer : Except ToolkitFault Json}

/-- A run that fails before it starts makes no call. -/
theorem refused : Conducted start (transformation :: rest) [] (.error failure) where
  carried := List.nil_prefix
  first := by simp
  passedOn := .nil
  aimed := by simp
  settled := by simp

theorem single (haimed : Application.Aimed ⟨payload, transformation, answer⟩) (message : String) :
    Conducted (.ok payload) [transformation] [⟨payload, transformation, answer⟩]
      (answer.mapError (Operation.toolkitFailure message)) where
  carried := List.prefix_rfl
  first := by simp
  passedOn := .singleton _
  aimed := List.forall_mem_singleton.mpr haimed
  settled := by simp [mapError_eq_ok]

/-- The first step fails, or the graph that comes back from it cannot be used. -/
theorem ended (haimed : Application.Aimed ⟨payload, transformation, answer⟩) (hrest : rest ≠ []) :
    Conducted (.ok payload) (transformation :: rest) [⟨payload, transformation, answer⟩]
      (.error failure) where
  carried := by simp
  first := by simp
  passedOn := .singleton _
  aimed := List.forall_mem_singleton.mpr haimed
  settled := by simp [hrest]

/-- A call that succeeds hands its graph to the rest of the run. -/
theorem cons (haimed : Application.Aimed ⟨payload, transformation, .ok graph⟩) (hrest : rest ≠ [])
    (h : Conducted (.ok graph) rest applications outcome) :
    Conducted (.ok payload) (transformation :: rest)
      (⟨payload, transformation, .ok graph⟩ :: applications) outcome where
  carried := by simpa using h.carried
  first := by simp
  passedOn := List.isChain_cons.mpr
    ⟨fun next hnext => congrArg _ (Except.ok.inj (h.first next hnext)), h.passedOn⟩
  aimed := List.forall_mem_cons.mpr ⟨haimed, h.aimed⟩
  settled := fun result => by
    rw [h.settled, List.length_cons, List.length_cons, Nat.add_right_cancel_iff]
    refine and_congr_right fun hlength => ?_
    have hsome : applications ≠ [] := fun hnil => by simp [hnil, eq_comm, hrest] at hlength
    rw [List.getLast?_cons_of_ne_nil hsome]

end Conducted

/-! ## The steps of a batch -/

theorem Arena.contains_graph_iff {arena : Arena} {id : Nat} :
    arena.contains (.graph id) = true ↔ id < arena.graphs.length := by
  rw [contains_graph, ← Option.isSome_iff_exists]
  simp

/-- A check against another arena will do if it has as many graphs. -/
theorem Application.Aimed.of_checked {arena decoded : Arena} {payload transformation : Json}
    {target : Nat} {answer : Except ToolkitFault Json}
    (hpayload : Arena.ofJson payload = .ok decoded)
    (hlength : decoded.graphs.length = arena.graphs.length)
    (htarget : targetGraph transformation = .ok target)
    (hgraph : arena.contains (.graph target) = true) :
    Application.Aimed ⟨payload, transformation, answer⟩ := by
  rw [Arena.contains_graph_iff, ← hlength] at hgraph
  exact ⟨decoded, target, hpayload, htarget, Arena.contains_graph_iff.mpr hgraph⟩

section Runs

variable {σ : Type} (answerer : Dialogue.Answerer σ) (options : WriteOptions)

/-- A step for a graph that is there is a single call. -/
theorem applyStep_asks (state : σ) {arena : Arena} (current : Json) {transformation : Json}
    (message : String) {target : Nat} (htarget : targetGraph transformation = .ok target)
    (hgraph : arena.contains (.graph target) = true) :
    (applyStep options arena current transformation message).Runs answerer state
      [⟨.apply current transformation options,
        (answerer (.apply current transformation options) state).1⟩]
      ((answerer (.apply current transformation options) state).1.mapError
        (Operation.toolkitFailure message))
      (answerer (.apply current transformation options) state).2 := by
  obtain ⟨graph, hfound⟩ := Arena.contains_graph.mp hgraph
  exact (Operation.runs_onGraph_ok answerer state _ htarget).bind_ok
    ((Operation.runs_onGraph_ok answerer state message (Arena.graph_eq_ok.mpr hfound)).bind_ok
      (Operation.runs_ask answerer state message _))

theorem applyStep_answered {state : σ} {arena : Arena} {current transformation : Json}
    (message : String) {target : Nat} {answer : Except ToolkitFault Json}
    (htarget : targetGraph transformation = .ok target)
    (hgraph : arena.contains (.graph target) = true)
    (hanswer : (answerer (.apply current transformation options) state).1 = answer) :
    (applyStep options arena current transformation message).Runs answerer state
      [⟨.apply current transformation options, answer⟩]
      (answer.mapError (Operation.toolkitFailure message))
      (answerer (.apply current transformation options) state).2 := by
  subst hanswer
  exact applyStep_asks answerer options state current message htarget hgraph

/-- An entry that is of no use fails under a message of its own. -/
theorem applyStep_unusable (state : σ) (arena : Arena) (current : Json) {transformation : Json}
    (message : String) {error : GraphError} (htarget : targetGraph transformation = .error error) :
    (applyStep options arena current transformation message).Runs answerer state []
      (.error (.ofGraphError transformationFailedMessage error)) state :=
  (Operation.runs_onGraph_error answerer state _ htarget).bind_error

/-- A step whose target is missing fails without a call. -/
theorem applyStep_missing (state : σ) {arena : Arena} (current : Json) {transformation : Json}
    (message : String) {target : Nat} (htarget : targetGraph transformation = .ok target)
    (hgraph : ¬ arena.contains (.graph target) = true) :
    (applyStep options arena current transformation message).Runs answerer state []
      (.error (.ofGraphError message (.graphNotFound (signedWord target)))) state := by
  have hnone : arena.graphs[target]? = none := by
    rw [Option.eq_none_iff_forall_ne_some]
    exact fun graph hsome => hgraph (Arena.contains_graph.mpr ⟨graph, hsome⟩)
  have hlookup : arena.graph target = .error (.graphNotFound (signedWord target)) := by
    rw [Arena.graph, hnone]
  exact (Operation.runs_onGraph_ok answerer state _ htarget).bind_ok
    (Operation.runs_onGraph_error answerer state message hlookup).bind_error

/-- Every other step is refused without a call. -/
theorem applyStep_refused (state : σ) {arena : Arena} (current : Json) {transformation : Json}
    (message : String) (h : ∀ target, targetGraph transformation = .ok target →
      ¬ arena.contains (.graph target) = true) :
    ∃ failure, (applyStep options arena current transformation message).Runs answerer state []
      (.error failure) state := by
  cases htarget : targetGraph transformation with
  | error error =>
      exact ⟨_, applyStep_unusable answerer options state arena current message htarget⟩
  | ok target =>
      exact ⟨_, applyStep_missing answerer options state current message htarget (h target htarget)⟩

/-- Apply transformations from a place on, each failure with the message for its place. -/
def applyInTurn (options : WriteOptions) (message : Nat → String) (arena : Arena) (current : Json)
    (position : Nat) : List Json → Operation Json
  | [] => return current
  | [transformation] => applyStep options arena current transformation (message position)
  | transformation :: next :: rest => do
    let current ← applyStep options arena current transformation (message position)
    let arena ← Operation.onGraph (Arena.ofJson current) (message position)
    applyInTurn options message arena current (position + 1) (next :: rest)

theorem applyFrom_eq (arena : Arena) (current : Json) (position : Nat)
    (transformations : List Json) :
    applyFrom options arena current position transformations =
      applyInTurn options batchMessage arena current position transformations := by
  fun_induction applyFrom options arena current position transformations with
  | case1 => rfl
  | case2 => rfl
  | case3 arena current position transformation next rest ih => simp only [applyInTurn, ih]

/-- Either of them, where the payload of the call is decoded to as many graphs as are checked. -/
theorem applyStep_runs (state : σ) {arena decoded : Arena} {current : Json}
    (transformation : Json) (message : String) (hcurrent : Arena.ofJson current = .ok decoded)
    (hlength : decoded.graphs.length = arena.graphs.length) :
    (∃ failure, (applyStep options arena current transformation message).Runs answerer state []
      (.error failure) state) ∨
    (∀ answer, Application.Aimed ⟨current, transformation, answer⟩) ∧
      (applyStep options arena current transformation message).Runs answerer state
        [⟨.apply current transformation options,
          (answerer (.apply current transformation options) state).1⟩]
        ((answerer (.apply current transformation options) state).1.mapError
          (Operation.toolkitFailure message))
        (answerer (.apply current transformation options) state).2 := by
  by_cases hthere : ∃ target, targetGraph transformation = .ok target ∧
      arena.contains (.graph target) = true
  · obtain ⟨target, htarget, hgraph⟩ := hthere
    exact .inr ⟨fun answer => .of_checked hcurrent hlength htarget hgraph,
      applyStep_asks answerer options state current message htarget hgraph⟩
  · exact .inl (applyStep_refused answerer options state current message (by simpa using hthere))

/-- However the toolkit answers, a batch is conducted from the first payload on, if this is decoded
to as many graphs as the first step is checked against. -/
theorem applyInTurn_conducted (message : Nat → String) {arena decoded : Arena} {current : Json}
    (hcurrent : Arena.ofJson current = .ok decoded)
    (hlength : decoded.graphs.length = arena.graphs.length) (position : Nat)
    (transformation : Json) (rest : List Json) (state : σ) : ∃ applications outcome last,
    (applyInTurn options message arena current position (transformation :: rest)).Runs answerer
      state (applications.map (Application.answered options)) outcome last ∧
    Conducted (.ok current) (transformation :: rest) applications outcome := by
  induction rest generalizing transformation arena decoded current position state with
  | nil =>
      obtain ⟨failure, hrefused⟩ | ⟨haimed, hasked⟩ := applyStep_runs answerer options state
        transformation (message position) hcurrent hlength
      · exact ⟨[], _, _, hrefused, .refused⟩
      · exact ⟨[⟨current, transformation, _⟩], _, _, hasked, .single (haimed _) _⟩
  | cons next rest ih =>
      have hmore : next :: rest ≠ [] := List.cons_ne_nil _ _
      obtain ⟨failure, hrefused⟩ | ⟨haimed, hasked⟩ := applyStep_runs answerer options state
        transformation (message position) hcurrent hlength
      · exact ⟨[], _, _, hrefused.bind_error, .refused⟩
      cases hanswer : (answerer (.apply current transformation options) state).1 with
      | error fault =>
          rw [hanswer] at hasked
          exact ⟨[⟨current, transformation, .error fault⟩], _, _, hasked.bind_error,
            .ended (haimed _) hmore⟩
      | ok returned =>
          rw [hanswer] at hasked
          -- A graph that came back and is not decoded ends the run after a call that succeeded.
          cases hdecoded : Arena.ofJson returned with
          | error error =>
              exact ⟨[⟨current, transformation, .ok returned⟩], _, _,
                hasked.bind_ok (Operation.runs_onGraph_error answerer _ _ hdecoded).bind_error,
                .ended (haimed _) hmore⟩
          | ok again =>
              obtain ⟨applications, outcome, last, hrest, hconducted⟩ :=
                ih hdecoded rfl (position + 1) next _
              exact ⟨⟨current, transformation, .ok returned⟩ :: applications, outcome, last,
                hasked.bind_ok ((Operation.runs_onGraph_ok answerer _ _ hdecoded).bind_ok hrest),
                .cons (haimed _) hmore hconducted⟩

end Runs

/-! ## Messages, and the last step -/

section Loops

variable (options : WriteOptions) (message : Nat → String)

/-- The messages of a batch do not matter to what it does. -/
theorem applyInTurn_unworded (other : Nat → String) (arena : Arena) (current : Json)
    (position place : Nat) (transformations : List Json) :
    (applyInTurn options message arena current position transformations).unworded =
      (applyInTurn options other arena current place transformations).unworded := by
  have hstep : ∀ (arena : Arena) (current transformation : Json) (first second : String),
      (applyStep options arena current transformation first).unworded =
        (applyStep options arena current transformation second).unworded := by
    intro arena current transformation first second
    simp only [applyStep, Operation.unworded_bind]
    refine bind_congr fun target => ?_
    rw [Operation.unworded_onGraph _ first second, Operation.unworded_ask _ first second]
  fun_induction applyInTurn options message arena current position transformations
      generalizing place with
  | case1 => rfl
  | case2 => exact hstep _ _ _ _ _
  | case3 arena current position transformation next rest ih =>
      simp only [applyInTurn, Operation.unworded_bind]
      rw [hstep arena current transformation (message position) (other place)]
      refine bind_congr fun returned => ?_
      rw [Operation.unworded_onGraph _ (message position) (other place)]
      exact bind_congr fun again => ih returned again (place + 1)

/-- The last step comes after a batch of the others. -/
theorem applyInTurn_concat (arena : Arena) (current : Json) (position : Nat)
    (transformation : Json) (rest : List Json) (last : Json) :
    applyInTurn options message arena current position (transformation :: (rest ++ [last])) =
      (applyInTurn options message arena current position (transformation :: rest) >>=
        fun returned =>
          Operation.onGraph (Arena.ofJson returned) (message (position + rest.length)) >>=
            fun again =>
              applyStep options again returned last (message (position + rest.length + 1))) := by
  induction rest generalizing transformation arena current position with
  | nil => rfl
  | cons next rest ih =>
      simp only [List.cons_append, applyInTurn, bind_assoc, ih, List.length_cons,
        Nat.add_assoc, Nat.add_comm 1]

end Loops

end DataflowEditor
