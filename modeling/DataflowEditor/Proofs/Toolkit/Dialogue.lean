import DataflowEditor.Toolkit.Dialogue

/-! # Running operations

A run of a dialogue leaves a trace: its calls with what was answered to them. An operation is run
step by step, and a step that fails is the last one. The wording of failures does not matter to a
run: two operations that are the same but for the messages make the same calls.
-/

namespace DataflowEditor

/-- A call, with the answer that was given to it. -/
abbrev Answered := (call : Call) × Except ToolkitFault call.Answer

namespace Dialogue

variable {α β σ : Type} (answerer : Answerer σ)

/-- The calls of a dialogue with this answerer and their answers, in order. -/
def trace : Dialogue α → σ → List Answered
  | .done _, _ => []
  | .ask call next, state =>
    ⟨call, (answerer call state).1⟩ ::
      trace (next (answerer call state).1) (answerer call state).2

theorem trace_calls (dialogue : Dialogue α) (state : σ) :
    (dialogue.trace answerer state).map Sigma.fst = dialogue.calls answerer state := by
  induction dialogue generalizing state with
  | done result => rfl
  | ask call next ih => exact congrArg (call :: ·) (ih _ _)

/-- What follows a dialogue is asked after it, from the state that it left. -/
theorem trace_bind (dialogue : Dialogue α) (more : α → Dialogue β) (state : σ) :
    (dialogue >>= more).trace answerer state = dialogue.trace answerer state ++
      (more (dialogue.run answerer state).1).trace answerer (dialogue.run answerer state).2 := by
  induction dialogue generalizing state with
  | done result => rfl
  | ask call next ih => exact congrArg (_ :: ·) (ih _ _)

theorem trace_map (change : α → β) (dialogue : Dialogue α) (state : σ) :
    (change <$> dialogue).trace answerer state = dialogue.trace answerer state := by
  rw [map_eq_pure_bind, trace_bind]
  exact List.append_nil _

theorem run_map (change : α → β) (dialogue : Dialogue α) (state : σ) :
    (change <$> dialogue).run answerer state =
      (change (dialogue.run answerer state).1, (dialogue.run answerer state).2) := by
  rw [map_eq_pure_bind]
  exact run_bind answerer dialogue _ state

end Dialogue

namespace Operation

variable {α β σ : Type} {answerer : Dialogue.Answerer σ} {state between last : σ}
  {operation : Operation α} {more : α → Operation β} {said : List Answered}

/-! ## Runs -/

/-- Started in a state, an operation says so much to the toolkit, has this outcome and leaves the
toolkit in the last state. -/
structure Runs (answerer : Dialogue.Answerer σ) (operation : Operation α) (state : σ)
    (said : List Answered) (outcome : Attempt α) (last : σ) : Prop where
  ends : operation.run.run answerer state = (outcome, last)
  trace : operation.run.trace answerer state = said

/-- What follows a success runs on from there. -/
theorem Runs.bind_ok {value : α} {rest : List Answered} {outcome : Attempt β}
    (h : Runs answerer operation state said (.ok value) between)
    (hmore : Runs answerer (more value) between rest outcome last) :
    Runs answerer (operation >>= more) state (said ++ rest) outcome last where
  ends := by
    rw [ExceptT.run_bind]
    refine (Dialogue.run_bind answerer operation.run _ state).trans ?_
    rw [h.ends]
    exact hmore.ends
  trace := by
    rw [ExceptT.run_bind, Dialogue.trace_bind, h.ends, h.trace]
    exact congrArg (said ++ ·) hmore.trace

/-- Nothing is said after a failure. -/
theorem Runs.bind_error {failure : Failure}
    (h : Runs answerer operation state said (.error failure) last) :
    Runs answerer (operation >>= more) state said (.error failure) last where
  ends := by
    rw [ExceptT.run_bind]
    refine (Dialogue.run_bind answerer operation.run _ state).trans ?_
    rw [h.ends]
    rfl
  trace := by
    rw [ExceptT.run_bind, Dialogue.trace_bind, h.ends, h.trace]
    exact List.append_nil said

section Steps

variable (answerer : Dialogue.Answerer σ) (state : σ) (message : String)

theorem runs_ofAttempt (attempt : Attempt α) :
    Runs answerer (ofAttempt attempt) state [] attempt state :=
  ⟨rfl, rfl⟩

theorem runs_onGraph_ok {result : Except GraphError α} {value : α} (h : result = .ok value) :
    Runs answerer (onGraph result message) state [] (.ok value) state := by
  rw [h]
  exact runs_ofAttempt answerer state _

/-- Work on a graph that fails ends the operation, with a failure that has the message. -/
theorem runs_onGraph_error {result : Except GraphError α} {error : GraphError}
    (h : result = .error error) :
    Runs answerer (onGraph result message) state [] (.error (.ofGraphError message error))
      state := by
  rw [h]
  exact runs_ofAttempt answerer state _

/-- A call is the only one, and a fault of the toolkit becomes a failure that has the message. -/
theorem runs_ask (call : Call) :
    Runs answerer (ask call message) state [⟨call, (answerer call state).1⟩]
      ((answerer call state).1.mapError (toolkitFailure message)) (answerer call state).2 :=
  ⟨rfl, rfl⟩

end Steps

/-- Two operations in turn succeed exactly if both do, the second from where the first ends. -/
theorem bind_ends_ok {value : β} :
    ((operation >>= more).run.run answerer state).1 = .ok value ↔
      ∃ first, (operation.run.run answerer state).1 = .ok first ∧
        ((more first).run.run answerer (operation.run.run answerer state).2).1 = .ok value := by
  have hself : Runs answerer operation state (operation.run.trace answerer state)
      (operation.run.run answerer state).1 (operation.run.run answerer state).2 := ⟨rfl, rfl⟩
  cases hfirst : (operation.run.run answerer state).1 with
  | error failure =>
      rw [hfirst] at hself
      rw [hself.bind_error.ends]
      simp
  | ok first =>
      rw [hfirst] at hself
      rw [(hself.bind_ok ⟨rfl, rfl⟩).ends]
      simp

theorem map_ends_ok {change : α → β} {value : β}
    (h : ((change <$> operation).run.run answerer state).1 = .ok value) :
    ∃ first, change first = value := by
  rw [map_eq_pure_bind] at h
  obtain ⟨first, _, hfirst⟩ := bind_ends_ok.mp h
  exact ⟨first, Except.ok.inj hfirst⟩

/-! ## Wording -/

/-- An operation whose failures come without the message for what was attempted. -/
def unworded (operation : Operation α) : ExceptT String Dialogue α :=
  operation.adapt Failure.details

/-- Messages can be left out step by step. -/
theorem unworded_bind (operation : Operation α) (more : α → Operation β) :
    (operation >>= more).unworded = operation.unworded >>= fun value => (more value).unworded := by
  apply ExceptT.ext
  rw [ExceptT.run_bind, unworded, ExceptT.run_adapt, ExceptT.run_bind, map_bind, unworded,
    ExceptT.run_adapt, bind_map_left]
  refine bind_congr fun outcome => ?_
  cases outcome <;> rfl

theorem unworded_onGraph (result : Except GraphError α) (message other : String) :
    (onGraph result message).unworded = (onGraph result other).unworded := by
  cases result <;> rfl

/-- Calls that differ in nothing but their message are the same without it. -/
theorem unworded_ask (call : Call) (message other : String) :
    (ask call message).unworded = (ask call other).unworded := by
  apply ExceptT.ext
  refine congrArg (Dialogue.ask call) (funext fun answer => ?_)
  cases answer <;> rfl

/-- Operations that differ in their messages alone have the same calls and end alike. -/
theorem Runs.of_unworded {other : Operation α} (hsame : operation.unworded = other.unworded)
    {outcome : Attempt α} (h : Runs answerer operation state said outcome last) : ∃ again,
    Runs answerer other state said again last ∧
      again.mapError Failure.details = outcome.mapError Failure.details := by
  have hmap : Except.mapError Failure.details <$> operation.run =
      Except.mapError Failure.details <$> other.run := congrArg ExceptT.run hsame
  have hends := congrArg (fun dialogue => dialogue.run answerer state) hmap
  have htrace := congrArg (fun dialogue => dialogue.trace answerer state) hmap
  simp only [Dialogue.run_map, h.ends, Prod.mk.injEq] at hends
  simp only [Dialogue.trace_map, h.trace] at htrace
  exact ⟨(other.run.run answerer state).1, ⟨Prod.ext rfl hends.2.symm, htrace.symm⟩,
    hends.1.symm⟩

end Operation

end DataflowEditor
